import Dbos.Pg.Loop
import Mathlib.Data.List.Perm.Basic
import Mathlib.Logic.Relation
import Mathlib.Order.WellFounded

/-!
A queue that is worked off from the front: a value puts those it leads to at the end. A walk that remembers what it has met comes to an end;
what it meets, it meets in the order in which a walk without memory meets it for the first time.
-/
namespace Dbos.Pg
variable {ν β : Type} {next : ν → List ν} {Q q done : List ν} {v w : ν}

/-! ### Walks without memory -/

/-- The first values in breadth-first order. -/
def breadth (next : ν → List ν) : Nat → List ν → List ν
  | 0,_ => []
  | _ + 1,[] => []
  | n + 1,v :: rest => v :: breadth next n (rest ++ next v)

/-- Led to in any number of steps. -/
def Leads (next : ν → List ν) : ν → ν → Prop := Relation.ReflTransGen fun a b => b ∈ next a

theorem breadth_append (next : ν → List ν) (n : Nat) (front rest : List ν) :
    breadth next (n + front.length) (front ++ rest) = front ++ breadth next n (rest ++ front.flatMap next) := by
  induction front generalizing rest with
  | nil => simp
  | cons v front ih =>
    have turn : breadth next (n + (v :: front).length) (v :: front ++ rest) = v :: breadth next (n + front.length) (front ++ rest ++ next v) := rfl
    rw [turn,List.append_assoc,ih (rest ++ next v)]
    simp

theorem breadth_leads {n : Nat} (met : v ∈ breadth next n Q) : ∃ root ∈ Q,Leads next root v := by
  induction n generalizing Q with
  | zero => simp [breadth] at met
  | succ n ih =>
    cases Q with
    | nil => simp [breadth] at met
    | cons root rest =>
      rcases List.mem_cons.mp met with rfl | later
      · exact ⟨v,List.mem_cons_self,.refl⟩
      · obtain ⟨start,waiting,path⟩ := ih later
        rcases List.mem_append.mp waiting with before | child
        · exact ⟨start,List.mem_cons_of_mem _ before,path⟩
        · exact ⟨root,List.mem_cons_self,.head child path⟩

theorem breadth_prefix (next : ν → List ν) {n m : Nat} (less : n ≤ m) (Q : List ν) : breadth next n Q <+: breadth next m Q := by
  induction n generalizing m Q with
  | zero => exact List.nil_prefix
  | succ n ih =>
    obtain ⟨m,rfl⟩ := Nat.exists_eq_add_of_le' (Nat.lt_of_lt_of_le (Nat.succ_pos n) less)
    cases Q with
    | nil => exact List.nil_prefix
    | cons v rest => exact List.cons_prefix_cons.mpr ⟨rfl,ih (Nat.le_of_succ_le_succ less) _⟩

/-- Of two values in breadth-first order one comes first, unless they stand at one place. -/
theorem breadth_either {n m : Nat} {before after before' after' : List ν} (first : breadth next n Q = before ++ v :: after)
    (second : breadth next m Q = before' ++ w :: after') : v ∈ before' ∨ w ∈ before ∨ v = w := by
  obtain ⟨all,left,right⟩ : ∃ all,before ++ v :: after <+: all ∧ before' ++ w :: after' <+: all :=
    ⟨breadth next (max n m) Q,first ▸ breadth_prefix next (Nat.le_max_left n m) Q,second ▸ breadth_prefix next (Nat.le_max_right n m) Q⟩
  obtain ⟨_,rfl⟩ := left
  obtain ⟨_,same⟩ := right
  rw [List.append_assoc,List.append_assoc] at same
  rcases List.append_eq_append_iff.mp same with ⟨middle,rfl,rest⟩ | ⟨middle,rfl,rest⟩
  · cases middle with
    | nil => exact .inr (.inr (List.cons.inj rest).1.symm)
    | cons u middle => exact .inr (.inl (by simp [(List.cons.inj rest).1]))
  · cases middle with
    | nil => exact .inr (.inr (List.cons.inj rest).1)
    | cons u middle => exact .inl (by simp [(List.cons.inj rest).1])

/-! ### Walks with memory -/

structure Walk (ν : Type) where
  queue : List ν
  seen : List ν

section
variable (next : ν → List ν) (remembered : ν → Bool) (answer : ν → Option β) [DecidableEq ν]

/-- A turn of the walk: it is over, or passes a value by that it has seen, or shows the value. -/
def Walk.turn (walk : Walk ν) : Option (Option ν × Walk ν) :=
  match walk.queue with
  | [] => none
  | v :: rest =>
    if remembered v then
      if v ∈ walk.seen then some (none,⟨rest,walk.seen⟩) else some (some v,⟨rest ++ next v,v :: walk.seen⟩)
    else some (some v,⟨rest,walk.seen⟩)

/-- A turn of somebody who looks at what the walk shows, and stops at the first answer. -/
def Walk.look (walk : Walk ν) : Option β ⊕ Walk ν :=
  match walk.turn next remembered with
  | none => .inl none
  | some (none,walk) => .inr walk
  | some (some v,walk) =>
    match answer v with
    | some b => .inl (some b)
    | none => .inr walk

/-- The first answer, if there is one. -/
def firstAnswer (fuel : Nat) (root : ν) : Option (Option β) :=
  loop (fun _ walk => some (Walk.look next remembered answer walk)) fuel ⟨[root],[]⟩

end

/-- An answer is the first one in breadth-first order; without an answer there is none to be had. -/
def Answers (next : ν → List ν) (answer : ν → Option β) (Q : List ν) : Option β → Prop
  | some b => ∃ n before v after,breadth next n Q = before ++ v :: after ∧ answer v = some b ∧ ∀ w ∈ before,answer w = none
  | none => ∀ root ∈ Q,∀ v,Leads next root v → answer v = none

section
variable {answer : ν → Option β} {front rest : List ν} {result : Option β}

/-- Values without an answer may be worked off. -/
theorem Answers.worked (front : List ν) (silent : ∀ v ∈ front,answer v = none) (later : Answers next answer (rest ++ front.flatMap next) result) :
    Answers next answer (front ++ rest) result := by
  cases result with
  | some b =>
    obtain ⟨n,before,v,after,order,answered,nobody⟩ := later
    refine ⟨n + front.length,front ++ before,v,after,?_,answered,?_⟩
    · rw [breadth_append,order,List.append_assoc]
    · intro w member
      rcases List.mem_append.mp member with early | late
      · exact silent w early
      · exact nobody w late
  | none =>
    intro root waiting v path
    rcases List.mem_append.mp waiting with early | late
    · rcases Relation.ReflTransGen.cases_head path with rfl | ⟨child,step,path⟩
      · exact silent root early
      · exact later child (List.mem_append_right _ (List.mem_flatMap.mpr ⟨root,early,step⟩)) v path
    · exact later root (List.mem_append_left _ late) v path

/-- The queue of a walk with memory lacks only what has been met, or stands further ahead. -/
inductive Thinned : List ν → List ν → List ν → Prop
  | nil (done : List ν) : Thinned done [] []
  | keep {done Q q : List ν} (v : ν) : Thinned (v :: done) Q q → Thinned done (v :: Q) (v :: q)
  | drop {done Q q : List ν} {v : ν} : v ∈ done → Thinned done Q q → Thinned done (v :: Q) q

theorem Thinned.mono (thinned : Thinned done Q q) {more : List ν} (grown : ∀ v ∈ done,v ∈ more) : Thinned more Q q := by
  induction thinned generalizing more with
  | nil => exact .nil more
  | keep v _ ih =>
    refine .keep v (ih fun w member => ?_)
    rcases List.mem_cons.mp member with rfl | old
    · exact List.mem_cons_self
    · exact List.mem_cons_of_mem _ (grown w old)
  | drop old _ ih => exact .drop (grown _ old) (ih grown)

theorem Thinned.refl (done Q : List ν) : Thinned done Q Q := by
  induction Q generalizing done with
  | nil => exact .nil done
  | cons v Q ih => exact .keep v (ih (v :: done))

/-- What has been met, or waits, need not be put in the queue again. -/
theorem Thinned.append (thinned : Thinned done Q q) {C c : List ν} (more : Thinned (q ++ done) C c) : Thinned done (Q ++ C) (q ++ c) := by
  induction thinned with
  | nil => exact more
  | @keep done Q q v _ ih =>
    refine .keep v (ih (more.mono fun w member => ?_))
    simp only [List.cons_append,List.mem_cons,List.mem_append] at member ⊢
    tauto
  | drop old _ ih => exact .drop old (ih more)

theorem Thinned.all {done C : List ν} (known : ∀ v ∈ C,v ∈ done) : Thinned done C [] := by
  induction C with
  | nil => exact .nil done
  | cons v C ih => exact .drop (known v List.mem_cons_self) (ih fun w member => known w (List.mem_cons_of_mem _ member))

theorem Thinned.cons_inv (thinned : Thinned done Q (v :: q)) : ∃ front rest,Q = front ++ v :: rest ∧ (∀ w ∈ front,w ∈ done) ∧ Thinned (v :: done) rest q := by
  generalize whole : v :: q = kept at thinned
  induction thinned with
  | nil => cases whole
  | keep w inner =>
    cases whole
    exact ⟨[],_,rfl,by simp,inner⟩
  | @drop done Q kept w old _ ih =>
    obtain ⟨front,rest,rfl,known,inner⟩ := ih whole
    refine ⟨w :: front,rest,rfl,fun x member => ?_,inner⟩
    rcases List.mem_cons.mp member with rfl | later
    · exact old
    · exact known x later

theorem Thinned.nil_inv (thinned : Thinned done Q []) : ∀ v ∈ Q,v ∈ done := by
  generalize whole : ([] : List ν) = kept at thinned
  induction thinned with
  | nil => simp
  | keep => cases whole
  | drop old _ ih =>
    intro w member
    rcases List.mem_cons.mp member with rfl | later
    · exact old
    · exact ih whole w later

/-! ### The walk answers -/

/-- What has been met has no answer, and leads to what has been met or waits. -/
structure Met (next : ν → List ν) (answer : ν → Option β) (remembered : ν → Bool) (walk : Walk ν) (done : List ν) : Prop where
  silent : ∀ v ∈ done,answer v = none
  closed : ∀ v ∈ done,∀ w ∈ next v,w ∈ walk.queue ++ done
  seen : ∀ v ∈ walk.seen,v ∈ done

variable {remembered : ν → Bool}

/-- At the end of the walk only what has been met is led to. -/
theorem Met.over {walk : Walk ν} (met : Met next answer remembered walk done) (empty : walk.queue = []) (known : ∀ v ∈ Q,v ∈ done) :
    Answers next answer Q none := by
  intro root waiting v path
  have reached : v ∈ done := by
    induction path with
    | refl => exact known root waiting
    | tail _ step ih => simpa [empty] using met.closed _ ih _ step
  exact met.silent v reached

section
variable {queue seen : List ν} (met : Met next answer remembered ⟨v :: queue,seen⟩ done)
include met

/-- What `v` and those before it lead to is in the queue of the walk, has been met, or is put there now. -/
theorem Met.thinned (known : ∀ w ∈ front,w ∈ done) (inner : Thinned (v :: done) rest queue) {C c : List ν}
    (put : Thinned (queue ++ v :: done) C c) : Thinned (v :: done) (rest ++ front.flatMap next ++ C) (queue ++ c) := by
  have passed : Thinned (queue ++ v :: done) (front.flatMap next) [] := by
    refine .all fun w member => ?_
    obtain ⟨x,before,step⟩ := List.mem_flatMap.mp member
    have waits := met.closed x (known x before) w step
    simp only [List.cons_append,List.mem_cons,List.mem_append] at waits ⊢
    tauto
  rw [List.append_assoc]
  exact inner.append (passed.append (put.mono fun w member => by simpa using member))

theorem Met.pass (before : v ∈ done) : Met next answer remembered ⟨queue,seen⟩ (v :: done) where
  silent w member := by
    rcases List.mem_cons.mp member with rfl | old
    · exact met.silent w before
    · exact met.silent w old
  closed w member x step := by
    have old : w ∈ done := by
      rcases List.mem_cons.mp member with rfl | old
      · exact before
      · exact old
    have waits := met.closed w old x step
    simp only [List.cons_append,List.mem_cons,List.mem_append] at waits ⊢
    tauto
  seen w member := List.mem_cons_of_mem _ (met.seen w member)

theorem Met.shown (silent : answer v = none) {seen' : List ν} (more : ∀ w ∈ seen',w = v ∨ w ∈ seen) :
    Met next answer remembered ⟨queue ++ next v,seen'⟩ (v :: done) where
  silent w member := by
    rcases List.mem_cons.mp member with rfl | old
    · exact silent
    · exact met.silent w old
  closed w member x step := by
    rcases List.mem_cons.mp member with rfl | old
    · simp [step]
    · have waits := met.closed w old x step
      simp only [List.cons_append,List.mem_cons,List.mem_append] at waits ⊢
      tauto
  seen w member := by
    rcases more w member with rfl | old
    · exact List.mem_cons_self
    · exact List.mem_cons_of_mem _ (met.seen w old)

end

variable [DecidableEq ν]

theorem look_answers (forgotten : ∀ v,remembered v = false → next v = []) (fuel : Nat) {walk : Walk ν}
    (met : Met next answer remembered walk done) (thinned : Thinned done Q walk.queue)
    (ended : loop (fun _ walk => some (Walk.look next remembered answer walk)) fuel walk = some result) : Answers next answer Q result := by
  induction fuel generalizing walk done Q with
  | zero => cases ended
  | succ fuel ih =>
    obtain ⟨queue,seen⟩ := walk
    cases queue with
    | nil =>
      cases Option.some.inj ended
      exact met.over rfl thinned.nil_inv
    | cons v queue =>
      obtain ⟨front,rest,rfl,known,inner⟩ := thinned.cons_inv
      refine Answers.worked _ (fun w member => met.silent w (known w member)) ?_
      have put : Thinned (queue ++ v :: done) (next v) (next v) := .refl _ _
      by_cases old : remembered v = true ∧ v ∈ seen
      · have before : v ∈ done := met.seen v old.2
        have turn : Walk.look next remembered answer ⟨v :: queue,seen⟩ = .inr ⟨queue,seen⟩ := by simp [Walk.look,Walk.turn,old]
        have nothing : Thinned (queue ++ v :: done) (next v) [] := by
          refine .all fun w step => ?_
          simpa [or_assoc,or_left_comm] using met.closed v before w step
        have less := met.thinned known inner nothing
        rw [List.append_nil] at less
        rw [loop,turn] at ended
        refine Answers.worked [v] (by simpa using met.silent v before) ?_
        simpa using ih (met.pass before) less ended
      · -- whatever the walk remembers, the value is shown and what it leads to is put at the end
        obtain ⟨seen',turn,more⟩ : ∃ seen',Walk.turn next remembered ⟨v :: queue,seen⟩ = some (some v,⟨queue ++ next v,seen'⟩) ∧
            ∀ w ∈ seen',w = v ∨ w ∈ seen := by
          by_cases kept : remembered v = true
          · exact ⟨v :: seen,by simp [Walk.turn,kept,show v ∉ seen from fun there => old ⟨kept,there⟩],by simp⟩
          · exact ⟨seen,by simp [Walk.turn,kept,forgotten v (by simpa using kept)],fun w member => .inr member⟩
        cases answered : answer v with
        | some b =>
          have last : Walk.look next remembered answer ⟨v :: queue,seen⟩ = .inl (some b) := by simp only [Walk.look,turn,answered]
          rw [loop,last] at ended
          cases Option.some.inj ended
          exact ⟨1,[],v,[],rfl,answered,by simp⟩
        | none =>
          have on : Walk.look next remembered answer ⟨v :: queue,seen⟩ = .inr ⟨queue ++ next v,seen'⟩ := by simp only [Walk.look,turn,answered]
          rw [loop,on] at ended
          refine Answers.worked [v] (by simpa using answered) ?_
          simpa using ih (met.shown answered more) (met.thinned known inner put) ended

/-- What the walk has not seen yet. -/
def Walk.unmet (everybody : List ν) (walk : Walk ν) : Nat := (everybody.filter fun v => v ∉ walk.seen).length

/-- A turn that goes on takes a value from the queue only, or sees one that it had not seen. -/
theorem look_on {remembered : ν → Bool} {everybody : List ν} (all : ∀ v,remembered v = true → v ∈ everybody) {walk walk' : Walk ν}
    (turn : Walk.look next remembered answer walk = .inr walk') :
    walk'.unmet everybody < walk.unmet everybody ∨
      walk'.unmet everybody = walk.unmet everybody ∧ walk'.queue.length < walk.queue.length := by
  obtain ⟨queue,seen⟩ := walk
  cases queue with
  | nil => simp [Walk.look,Walk.turn] at turn
  | cons v queue =>
    by_cases kept : remembered v = true
    · by_cases old : v ∈ seen
      · have same : ⟨queue,seen⟩ = walk' := by simpa [Walk.look,Walk.turn,kept,old] using turn
        subst same
        exact .inr ⟨rfl,by simp⟩
      · have next_ : ⟨queue ++ next v,v :: seen⟩ = walk' := by
          simp only [Walk.look,Walk.turn,kept,if_pos,if_neg old] at turn
          cases answered : answer v <;> simp [answered] at turn
          exact turn
        subst next_
        left
        have less : everybody.filter (fun w => w ∉ v :: seen) = (everybody.filter fun w => w ∉ seen).filter fun w => w ≠ v := by
          rw [List.filter_filter]
          refine List.filter_congr fun w _ => ?_
          simp
        unfold Walk.unmet
        rw [less,List.length_filter_lt_length_iff_exists]
        exact ⟨v,by simp [all v kept,old],by simp⟩
    · have next_ : ⟨queue,seen⟩ = walk' := by
        simp only [Walk.look,Walk.turn,if_neg kept] at turn
        cases answered : answer v <;> simp [answered] at turn
        exact turn
      subst next_
      exact .inr ⟨rfl,by simp⟩

/-- Among finitely many values that are remembered the walk ends. -/
theorem look_ends {remembered : ν → Bool} {everybody : List ν} (all : ∀ v,remembered v = true → v ∈ everybody) (walk : Walk ν) :
    ∃ result,Ends (loop fun _ walk => some (Walk.look next remembered answer walk)) walk result := by
  suffices ended : ∃ result,Ends (loop fun _ walk => some (Walk.look next remembered answer walk)) walk result ∧ True by
    obtain ⟨result,ended,_⟩ := ended
    exact ⟨result,ended⟩
  refine loop_ends_below (I := fun _ => True) (grows_const _)
    (InvImage.wf (fun walk : Walk ν => (walk.unmet everybody,walk.queue.length)) (Prod.lex Nat.lt_wfRel Nat.lt_wfRel).wf) ?_ trivial
  intro walk _
  cases turn : Walk.look next remembered answer walk with
  | inl result => exact .inl ⟨result,⟨0,congrArg some turn⟩,trivial⟩
  | inr walk' =>
    refine .inr ⟨walk',⟨0,congrArg some turn⟩,trivial,?_⟩
    rcases look_on all turn with fewer | ⟨same,shorter⟩
    · exact Prod.Lex.left _ _ fewer
    · exact Prod.lex_def.mpr (.inr ⟨same,shorter⟩)

/-- The walk from one value ends: with the first answer in breadth-first order, or without one when nothing led to has one. -/
theorem firstAnswer_ends (forgotten : ∀ v,remembered v = false → next v = []) {everybody : List ν}
    (all : ∀ v,remembered v = true → v ∈ everybody) (root : ν) :
    ∃ result,Ends (firstAnswer next remembered answer) root result ∧ Answers next answer [root] result := by
  obtain ⟨result,fuel,ended⟩ : ∃ result,Ends (loop fun _ walk => some (Walk.look next remembered answer walk)) ⟨[root],[]⟩ result :=
    look_ends all _
  have start : Met next answer remembered ⟨[root],[]⟩ [] := ⟨by simp,by simp,by simp⟩
  exact ⟨result,⟨fuel,ended⟩,look_answers forgotten fuel start (.refl _ _) ended⟩

end
end Dbos.Pg
