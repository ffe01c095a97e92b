import Dbos.Pg.Run
import Mathlib.Data.List.Nodup
import Mathlib.Data.List.Pairwise
import Mathlib.Data.Fintype.Basic

/-!
Blocks that set contextual items for a callback: `withNextWorkflowID`, `withAuthedContext`, `withWorkflowQueue`, `withWorkflowTimeout`
and `runWithContext`, all `#withTopContext` of `src/dbos.ts`. Where there is no context the block runs in the options object that
it is given. Where there is one, the block overwrites it, for everybody who runs in it, and puts back what it found when its
callback has settled. Blocks overlap at the awaits of their callbacks, and one object may be given to many.
-/
namespace Dbos.ContextBlocks
open Dbos.Pg

/-- The fields of `DBOSContextOptions`. -/
inductive Key
  | idAssignedForNextWorkflow
  | queueAssignedForWorkflows
  | logger
  | authenticatedUser
  | authenticatedRoles
  | assumedRole
  | request
  | operationType
  | operationCaller
  | workflowTimeoutMS
  | serializationType
  deriving DecidableEq

instance : Fintype Key where
  elems := {.idAssignedForNextWorkflow,.queueAssignedForWorkflows,.logger,.authenticatedUser,.authenticatedRoles,.assumedRole,.request,
    .operationType,.operationCaller,.workflowTimeoutMS,.serializationType}
  complete k := by cases k <;> decide

/-- The own properties of an object, of which one may be undefined: `some none`. -/
abbrev Props (Value : Type) := Key → Option (Option Value)

/-- The options of a call: an object literal, or an object that is there already. -/
inductive Options (Value : Type)
  | literal (props : Props Value)
  | object (o : Nat)

section
variable {Value : Type}

def Options.only (key : Key) (value : Value) : Options Value := .literal fun k => if k = key then some (some value) else none

/-- The values of the items; `null` is a timeout of `none`. -/
inductive Item
  | text (value : String)
  | texts (values : List String)
  | timeout (ms : Option Int)
  deriving DecidableEq

def Item.truthy : Item → Bool
  | .text value => value ≠ ""
  | .texts _ => true
  | .timeout ms => ms.any (· ≠ 0)

/-! ### The options of the blocks -/

def withNextWorkflowID (workflowID : String) : Options Item := .only .idAssignedForNextWorkflow (.text workflowID)

def withAuthedContext (authedUser : String) (authedRoles : List String) : Options Item :=
  .literal fun
    | .authenticatedUser => some (some (.text authedUser))
    | .authenticatedRoles => some (some (.texts authedRoles))
    | _ => none

def withNamedContext (callerName : String) : Options Item := .only .operationCaller (.text callerName)

def withWorkflowQueue (queueName : String) : Options Item := .only .queueAssignedForWorkflows (.text queueName)

def withWorkflowTimeout (timeoutMS : Option Int) : Options Item := .only .workflowTimeoutMS (.timeout timeoutMS)

end

/-- A call of `#withTopContext`: the blocks in whose callbacks it is made, the object that its callback sees as the context, whether this
    is the object that it is `given`, what it found there, and `existing`. -/
structure Block (Value : Type) where
  path : List Nat
  context : Nat
  own : Bool
  given : Nat
  options : Props Value
  existing : Props Value

/-- The common context is object 0, with what it had `before`. `running` are the blocks whose callbacks have not settled, the last one
    first. `consumed` are the blocks whose next-workflow ID has been consumed by what runs in them, and `none` where no running block
    had set it. -/
structure System (Value : Type) where
  before : Option (Props Value)
  objects : Nat → Props Value
  allocated : Nat
  blocks : List (Block Value) := []
  running : List Nat := []
  consumed : List (Option Nat) := []

/-- Code runs in the callback of a block or, for `none`, outside of all blocks. -/
inductive Event (Value : Type)
  | withTopContext (at_ : Option Nat) (options : Options Value)
  | settle (b : Nat)
  | getNextWFID (at_ : Option Nat)

section
variable {Value : Type} (truthy : Value → Bool)

def start (before : Option (Props Value)) : System Value where
  before := before
  objects := fun _ => before.getD fun _ => none
  allocated := before.toList.length

/-- `getCurrentContextStore`. -/
def System.currentContext (s : System Value) : Option Nat → Option Nat
  | none => s.before.map fun _ => 0
  | some b => (s.blocks[b]?).map Block.context

/-- What `getCurrentContextStore` has for a key. -/
def System.read (s : System Value) (at_ : Option Nat) (k : Key) : Option (Option Value) :=
  (s.currentContext at_).bind fun c => s.objects c k

/-- The blocks in whose callbacks the code runs. -/
def System.scope (s : System Value) : Option Nat → List Nat
  | none => []
  | some b => b :: ((s.blocks[b]?).map Block.path).getD []

/-- The block has the key of the context from its options. -/
def System.sets (s : System Value) (c : Nat) (k : Key) (b : Nat) : Bool :=
  (s.blocks[b]?).any fun block => block.context = c && (block.options k).isSome

/-- The running blocks that have set the key, the last one first. -/
def System.setters (s : System Value) (c : Nat) (k : Key) : List Nat := s.running.filter (s.sets c k)

def isTruthy (value : Option (Option Value)) : Bool := value.any fun value => value.any truthy

/-- The place of the options, where a literal is a new object. -/
def System.allocate (s : System Value) : Options Value → System Value × Nat
  | .literal props => ({ s with objects := Function.update s.objects s.allocated props,allocated := s.allocated + 1 },s.allocated)
  | .object o => (s,o)

def System.enter (s : System Value) (objects : Nat → Props Value) (block : Block Value) : System Value :=
  { s with objects := objects,blocks := s.blocks ++ [block],running := s.blocks.length :: s.running }

/-- `#withTopContext` up to its callback. -/
def System.withTopContext (s : System Value) (at_ : Option Nat) (given : Nat) : System Value :=
  let options := s.objects given
  match s.currentContext at_ with
  | some c =>
    s.enter (Function.update s.objects c fun k => (options k).or (s.objects c k))
      ⟨s.scope at_,c,false,given,options,fun k => if (options k).isSome then s.objects c k else none⟩
  | none => s.enter s.objects ⟨s.scope at_,given,true,given,options,options⟩

def step (s : System Value) : Event Value → Option (System Value)
  | .withTopContext at_ options =>
    if at_.all (· < s.blocks.length) = true ∧ (s.allocate options).2 < (s.allocate options).1.allocated then
      some ((s.allocate options).1.withTopContext at_ (s.allocate options).2)
    else none
  | .settle b =>
    if b ∈ s.running then
      (s.blocks[b]?).map fun block =>
        { s with
          -- the keys of the options are read again
          objects :=
            if block.own then s.objects
            else Function.update s.objects block.context fun k =>
              if (s.objects block.given k).isSome then block.existing k else s.objects block.context k
          running := s.running.filter (· ≠ b) }
    else none
  | .getNextWFID at_ =>
    some <| match s.currentContext at_ with
    | some c =>
      if isTruthy truthy (s.objects c .idAssignedForNextWorkflow) then
        { s with
          objects := Function.update s.objects c (Function.update (s.objects c) .idAssignedForNextWorkflow (some none))
          consumed := ((s.setters c .idAssignedForNextWorkflow).find? fun b => b ∈ s.scope at_) :: s.consumed }
      else s
    | none => s

/-! ### What a block is promised -/

/-- What the block has set, until it is consumed. -/
def System.cell (s : System Value) (b : Nat) (k : Key) : Option (Option Value) :=
  if k = .idAssignedForNextWorkflow ∧ some b ∈ s.consumed then some none else (s.blocks[b]?).bind fun block => block.options k

/-- What is in the common context without the blocks that overwrite it. -/
def System.base (s : System Value) (k : Key) : Option (Option Value) :=
  if k = .idAssignedForNextWorkflow ∧ none ∈ s.consumed then some none else s.before.bind fun props => props k

/-- What a running block has set is what code in its callback reads, except where a block that runs in it has set the same; and when no
    block runs, the common context is what it was. -/
structure Scoped (s : System Value) : Prop where
  reads : ∀ b ∈ s.running, ∀ block, s.blocks[b]? = some block → ∀ k, (block.options k).isSome →
    (∀ inner ∈ s.running, ∀ other, s.blocks[inner]? = some other → b ∈ other.path → other.options k = none) →
    ∀ at_, b ∈ s.scope at_ → s.read at_ k = s.cell b k
  restored : s.running = [] → s.before.isSome → s.objects 0 = s.base

/-- What is in the options when the call is made. -/
def System.given (s : System Value) (options : Options Value) : Props Value := (s.allocate options).1.objects (s.allocate options).2

/-- A block overwrites a key of a context only inside of the running blocks that have set it there. It settles before what has set
    one of its keys after it, and with the keys in its options that it began with. An ID that is consumed is the one of a block in
    which the workflow is started. -/
def Nested (s : System Value) : Event Value → Prop
  | .withTopContext at_ options =>
    ∀ c, s.currentContext at_ = some c → ∀ k, (s.given options k).isSome → ∀ b ∈ s.setters c k, b ∈ s.scope at_
  | .settle b =>
    ∀ block, s.blocks[b]? = some block → block.own = false →
      ∀ k, (s.objects block.given k).isSome = (block.options k).isSome ∧
        ((block.options k).isSome → ∀ later ∈ s.setters block.context k, later ≤ b)
  | .getNextWFID at_ =>
    ∀ c, s.currentContext at_ = some c → isTruthy truthy (s.objects c .idAssignedForNextWorkflow) = true →
      ∀ b ∈ s.setters c .idAssignedForNextWorkflow, b ∈ s.scope at_

instance decidableNested (s : System Value) : ∀ e, Decidable (Nested truthy s e)
  | .withTopContext at_ options =>
    match sees : s.currentContext at_ with
    | none => isTrue fun c seen => nomatch sees.symm.trans seen
    | some c => decidable_of_iff (∀ k, (s.given options k).isSome → ∀ b ∈ s.setters c k, b ∈ s.scope at_)
        (by simp only [Nested,sees,Option.some.injEq,forall_eq'])
  | .settle b =>
    match found : s.blocks[b]? with
    | none => isTrue fun block listed => nomatch found.symm.trans listed
    | some block => decidable_of_iff (block.own = false → ∀ k, (s.objects block.given k).isSome = (block.options k).isSome ∧
          ((block.options k).isSome → ∀ later ∈ s.setters block.context k, later ≤ b))
        (by simp only [Nested,found,Option.some.injEq,forall_eq'])
  | .getNextWFID at_ =>
    match sees : s.currentContext at_ with
    | none => isTrue fun c seen => nomatch sees.symm.trans seen
    | some c => decidable_of_iff (isTruthy truthy (s.objects c .idAssignedForNextWorkflow) = true →
          ∀ b ∈ s.setters c .idAssignedForNextWorkflow, b ∈ s.scope at_)
        (by simp only [Nested,sees,Option.some.injEq,forall_eq'])

end

section
variable {Value : Type} {truthy : Value → Bool}

/-! ### The stack of a key -/

/-- The value of a key under the blocks that have set it, the last one first: it is what the last one has set, and what that one has
    found is the value under the rest. -/
def Stacked (s : System Value) (k : Key) : List Nat → Option (Option Value) → Option (Option Value) → Prop
  | [],current,base => current = base
  | b :: rest,current,base => current = s.cell b k ∧ ∃ block, s.blocks[b]? = some block ∧ Stacked s k rest (block.existing k) base

/-- What holds of a block once it has begun. Only where there is no common context is an object the context of a block of its own; such
    a block runs in no other, and none that has set the ID is older than it when its ID is consumed. -/
structure Placed (s : System Value) (b : Nat) (block : Block Value) : Prop where
  allocated : block.context < s.allocated
  common : s.before.isSome → block.own = false ∧ block.context = 0
  found : block.own = true → block.existing = block.options
  around : ∀ a ∈ block.path, ∃ outer, s.blocks[a]? = some outer ∧ outer.context = block.context
  outermost : ∀ o outer, s.blocks[o]? = some outer → outer.own = true → o ∈ b :: block.path → ∀ inner ∈ b :: block.path, o ≤ inner
  oldest : block.own = true → some b ∈ s.consumed → ∀ older ∈ s.setters block.context .idAssignedForNextWorkflow, b ≤ older

/-- What holds along every run. -/
structure Good (s : System Value) : Prop where
  stacked : ∀ c k, ∃ base, Stacked s k (s.setters c k) (s.objects c k) base ∧ (c = 0 → s.before.isSome → base = s.base k)
  enclosed : ∀ c k, (s.setters c k).Pairwise fun later b => ∀ block, s.blocks[later]? = some block → block.own = false → b ∈ block.path
  sorted : s.running.Pairwise (· > ·)
  bound : ∀ b ∈ s.running, b < s.blocks.length
  consumed : ∀ b, some b ∈ s.consumed → b < s.blocks.length
  common : s.before.isSome → 0 < s.allocated
  placed : ∀ b block, s.blocks[b]? = some block → Placed s b block

theorem mem_setters {s : System Value} {c : Nat} {k : Key} {b : Nat} : b ∈ s.setters c k ↔
    b ∈ s.running ∧ ∃ block, s.blocks[b]? = some block ∧ block.context = c ∧ (block.options k).isSome := by
  unfold System.setters System.sets
  rw [List.mem_filter]
  cases found : s.blocks[b]? with
  | none => simp
  | some block => simp

/-- A block that has set a key of a context, when the block is known. -/
theorem setter_block {s : System Value} {c : Nat} {k : Key} {b : Nat} {block : Block Value} (found : s.blocks[b]? = some block)
    (set : b ∈ s.setters c k) : b ∈ s.running ∧ block.context = c ∧ (block.options k).isSome := by
  obtain ⟨running,block',found',rest⟩ := mem_setters.mp set
  cases found.symm.trans found'
  exact ⟨running,rest⟩

theorem Stacked.congr {s s' : System Value} {k : Key} {setters : List Nat}
    (cells : ∀ b ∈ setters, s'.cell b k = s.cell b k) (blocks : ∀ b ∈ setters, s'.blocks[b]? = s.blocks[b]?)
    {current base : Option (Option Value)} (stacked : Stacked s k setters current base) : Stacked s' k setters current base := by
  induction setters generalizing current with
  | nil => exact stacked
  | cons b rest ih =>
    obtain ⟨top,block,found,under⟩ := stacked
    refine ⟨?_,block,(blocks b List.mem_cons_self).trans found,?_⟩
    · rw [cells b List.mem_cons_self]
      exact top
    · exact ih (fun b' listed => cells b' (List.mem_cons_of_mem _ listed)) (fun b' listed => blocks b' (List.mem_cons_of_mem _ listed)) under

theorem Stacked.same {s s' : System Value} (blocks : s'.blocks = s.blocks) (consumed : s'.consumed = s.consumed) {k : Key}
    {setters : List Nat} {current base : Option (Option Value)} (stacked : Stacked s k setters current base) :
    Stacked s' k setters current base :=
  stacked.congr (fun b _ => by simp only [System.cell,blocks,consumed]) (fun b _ => by rw [blocks])

theorem stacked_append {s : System Value} {k : Key} {upper lower : List Nat} {current base : Option (Option Value)} :
    Stacked s k (upper ++ lower) current base ↔ ∃ mid, Stacked s k upper current mid ∧ Stacked s k lower mid base := by
  induction upper generalizing current with
  | nil => exact ⟨fun stacked => ⟨current,rfl,stacked⟩,fun ⟨_,same,stacked⟩ => same ▸ stacked⟩
  | cons b rest ih =>
    constructor
    · rintro ⟨top,block,found,stacked⟩
      obtain ⟨mid,upper,lower⟩ := ih.mp stacked
      exact ⟨mid,⟨top,block,found,upper⟩,lower⟩
    · rintro ⟨mid,⟨top,block,found,upper⟩,lower⟩
      exact ⟨top,block,found,ih.mpr ⟨mid,upper,lower⟩⟩

/-- Blocks that have set what they have found leave what is under them in sight. -/
theorem Stacked.through {s : System Value} {k : Key} {setters : List Nat} {current base : Option (Option Value)}
    (clear : ∀ b ∈ setters, ∀ block, s.blocks[b]? = some block → s.cell b k = block.existing k)
    (stacked : Stacked s k setters current base) : current = base := by
  induction setters generalizing current with
  | nil => exact stacked
  | cons b rest ih =>
    obtain ⟨top,block,found,under⟩ := stacked
    rw [top,clear b List.mem_cons_self block found]
    exact ih (fun b' listed => clear b' (List.mem_cons_of_mem _ listed)) under

/-- The setters with those above and those under one of them. -/
theorem Good.split {s : System Value} (good : Good s) {c : Nat} {k : Key} {b : Nat} (set : b ∈ s.setters c k) :
    ∃ above under, s.setters c k = above ++ b :: under ∧ (∀ later ∈ above, b < later) ∧ ∀ older ∈ under, older < b := by
  obtain ⟨above,under,order⟩ := List.append_of_mem set
  have sorted : (s.setters c k).Pairwise (· > ·) := good.sorted.filter _
  rw [order] at sorted
  obtain ⟨_,below,across⟩ := List.pairwise_append.mp sorted
  exact ⟨above,under,order,fun later listed => across later listed b List.mem_cons_self,(List.pairwise_cons.mp below).1⟩

/-- A block in its own object sets what it finds, unless its ID is consumed. -/
theorem cell_own {s : System Value} (good : Good s) {b : Nat} {block : Block Value} (found : s.blocks[b]? = some block)
    (own : block.own = true) {k : Key} (unconsumed : k = .idAssignedForNextWorkflow → some b ∉ s.consumed) :
    s.cell b k = block.existing k := by
  rw [(good.placed b block found).found own]
  unfold System.cell
  rw [if_neg fun ⟨next,consumed⟩ => unconsumed next consumed,found,Option.bind_some]

/-- Code in the callback of a block sees the context of the block. -/
theorem Good.sees {s : System Value} (good : Good s) {b : Nat} {block : Block Value} (found : s.blocks[b]? = some block)
    {at_ : Option Nat} (within : b ∈ s.scope at_) : s.currentContext at_ = some block.context := by
  cases at_ with
  | none => cases within
  | some x =>
    rcases List.mem_cons.mp within with rfl | around
    · simp only [System.currentContext,found,Option.map_some]
    · cases there : s.blocks[x]? with
      | none => simp [there] at around
      | some inner =>
        simp only [there,Option.map_some,Option.getD_some] at around
        obtain ⟨outer,found',same⟩ := (good.placed x inner there).around b around
        cases found.symm.trans found'
        simp only [System.currentContext,there,Option.map_some,same]

/-- What the invariant says of the reads. -/
theorem Good.scoped {s : System Value} (good : Good s) : Scoped s := by
  constructor
  · intro b running block found k sets inside at_ within
    unfold System.read
    rw [good.sees found within,Option.bind_some]
    have set : b ∈ s.setters block.context k := mem_setters.mpr ⟨running,block,found,rfl,sets⟩
    obtain ⟨above,under,order,later,_⟩ := good.split set
    obtain ⟨base,stacked,_⟩ := good.stacked block.context k
    have enclosed := good.enclosed block.context k
    rw [order] at stacked enclosed
    obtain ⟨mid,upper,top,_⟩ := stacked_append.mp stacked
    rw [← top]
    refine upper.through ?_
    intro setter listed other there
    have set' : setter ∈ s.setters block.context k := order ▸ List.mem_append_left _ listed
    obtain ⟨runs,same,sets'⟩ := setter_block there set'
    cases isOwn : other.own with
    | false =>
      -- a block that overwrites the key does it inside of this one
      have nested := (List.pairwise_append.mp enclosed).2.2 setter listed b List.mem_cons_self other there isOwn
      rw [inside setter runs other there nested] at sets'
      cases sets'
    | true =>
      refine cell_own good there isOwn ?_
      rintro rfl consumed
      have oldest := (good.placed setter other there).oldest isOwn consumed b (same ▸ set)
      exact absurd (later setter listed) (by omega)
  · intro settled was
    funext k
    obtain ⟨base,stacked,common⟩ := good.stacked 0 k
    have empty : s.setters 0 k = [] := by simp [System.setters,settled]
    rw [empty,common rfl was] at stacked
    exact stacked

/-! ### Steps -/

/-- A new object is nobody's context yet. -/
theorem setters_unallocated {s : System Value} (good : Good s) {c : Nat} (fresh : s.allocated ≤ c) (k : Key) : s.setters c k = [] := by
  refine List.eq_nil_iff_forall_not_mem.mpr ?_
  intro b set
  obtain ⟨_,block,found,rfl,_⟩ := mem_setters.mp set
  have inside := (good.placed b block found).allocated
  omega

theorem Placed.allocate {s : System Value} {b : Nat} {block : Block Value} (placed : Placed s b block) (objects : Nat → Props Value) :
    Placed { s with objects := objects,allocated := s.allocated + 1 } b block where
  allocated := Nat.lt_succ_of_lt placed.allocated
  common := placed.common
  found := placed.found
  around := placed.around
  outermost := placed.outermost
  oldest := placed.oldest

theorem Good.allocate {s : System Value} (good : Good s) (options : Options Value) : Good (s.allocate options).1 := by
  cases options with
  | object o => exact good
  | literal props =>
    refine ⟨?_,good.enclosed,good.sorted,good.bound,good.consumed,fun _ => Nat.succ_pos _,
      fun b block found => (good.placed b block found).allocate _⟩
    intro c k
    by_cases fresh : c = s.allocated
    · subst fresh
      refine ⟨(s.allocate (.literal props)).1.objects s.allocated k,?_,?_⟩
      · show Stacked _ k (s.setters s.allocated k) _ _
        rw [setters_unallocated good (Nat.le_refl _)]
        exact rfl
      · intro first was
        exact absurd (good.common was) (by omega)
    · obtain ⟨base,stacked,common⟩ := good.stacked c k
      refine ⟨base,?_,common⟩
      show Stacked _ k (s.setters c k) (Function.update s.objects s.allocated props c k) base
      rw [Function.update_of_ne fresh]
      exact stacked.same (by rfl) (by rfl)

theorem cell_enter {s : System Value} {b : Nat} (old : b < s.blocks.length) (k : Key) (objects : Nat → Props Value) (block : Block Value) :
    (s.enter objects block).cell b k = s.cell b k := by
  simp only [System.cell,System.enter,List.getElem?_append_left old]

/-- The new block's cell is what it sets. -/
theorem cell_new {s : System Value} (good : Good s) (k : Key) (objects : Nat → Props Value) (block : Block Value) :
    (s.enter objects block).cell s.blocks.length k = block.options k := by
  have unconsumed : some s.blocks.length ∉ s.consumed := fun listed => Nat.lt_irrefl _ (good.consumed _ listed)
  simp [System.cell,System.enter,unconsumed]

theorem setters_enter {s : System Value} (good : Good s) (c : Nat) (k : Key) (objects : Nat → Props Value) (block : Block Value) :
    (s.enter objects block).setters c k =
      if block.context = c ∧ (block.options k).isSome then s.blocks.length :: s.setters c k else s.setters c k := by
  have others : s.running.filter ((s.enter objects block).sets c k) = s.setters c k := by
    refine List.filter_congr ?_
    intro b listed
    simp only [System.sets,System.enter,List.getElem?_append_left (good.bound b listed)]
  show (s.blocks.length :: s.running).filter _ = _
  rw [List.filter_cons,others]
  simp only [System.sets,System.enter,List.getElem?_concat_length,Option.any_some,Bool.and_eq_true,decide_eq_true_eq]

theorem stacked_enter {s : System Value} {k : Key} {setters : List Nat} {current base : Option (Option Value)}
    (stacked : Stacked s k setters current base) (olds : ∀ b ∈ setters, b < s.blocks.length) (objects : Nat → Props Value)
    (block : Block Value) : Stacked (s.enter objects block) k setters current base :=
  stacked.congr (fun b listed => cell_enter (olds b listed) k objects block) (fun b listed => List.getElem?_append_left (olds b listed))

/-- A block that has begun before another one is where it was. -/
theorem Placed.enter {s : System Value} (good : Good s) {b : Nat} {old : Block Value} (found : s.blocks[b]? = some old)
    (objects : Nat → Props Value) (block : Block Value) : Placed (s.enter objects block) b old := by
  have placed := good.placed b old found
  have inside : ∀ a ∈ b :: old.path, a < s.blocks.length := by
    intro a listed
    rcases List.mem_cons.mp listed with rfl | around
    · exact (List.getElem?_eq_some_iff.mp found).1
    · obtain ⟨outer,there,_⟩ := placed.around a around
      exact (List.getElem?_eq_some_iff.mp there).1
  refine ⟨placed.allocated,placed.common,placed.found,?_,?_,?_⟩
  · intro a around
    obtain ⟨outer,there,same⟩ := placed.around a around
    exact ⟨outer,(List.getElem?_append_left (inside a (List.mem_cons_of_mem _ around))).trans there,same⟩
  · intro o outer there own within
    exact placed.outermost o outer ((List.getElem?_append_left (inside o within)).symm.trans there) own within
  · intro own consumed older set
    rw [setters_enter good] at set
    have younger : b < s.blocks.length := inside b List.mem_cons_self
    split at set
    · rcases List.mem_cons.mp set with rfl | set
      · exact Nat.le_of_lt younger
      · exact placed.oldest own consumed older set
    · exact placed.oldest own consumed older set

/-- A block begins: it sets what is in its options, and what it found it puts back. -/
theorem Good.enter {s : System Value} (good : Good s) {objects : Nat → Props Value} {block : Block Value}
    (kept : ∀ c k, ¬ (block.context = c ∧ (block.options k).isSome) → objects c k = s.objects c k)
    (sets : ∀ k, (block.options k).isSome → objects block.context k = block.options k ∧ block.existing k = s.objects block.context k)
    (inside : block.own = false → ∀ k, (block.options k).isSome → ∀ b ∈ s.setters block.context k, b ∈ block.path)
    (placed : Placed (s.enter objects block) s.blocks.length block) : Good (s.enter objects block) := by
  have olds : ∀ c k, ∀ b ∈ s.setters c k, b < s.blocks.length := fun c k b listed => good.bound b (mem_setters.mp listed).1
  constructor
  · intro c k
    obtain ⟨base,stacked,common⟩ := good.stacked c k
    have under := stacked_enter stacked (olds c k) objects block
    refine ⟨base,?_,common⟩
    rw [setters_enter good]
    split
    · rename_i here
      obtain ⟨rfl,some_⟩ := here
      obtain ⟨now,before⟩ := sets k some_
      refine ⟨?_,block,List.getElem?_concat_length,before ▸ under⟩
      rw [cell_new good]
      exact now
    · rename_i elsewhere
      show Stacked _ k _ (objects c k) base
      rw [kept c k elsewhere]
      exact under
  · intro c k
    have before : (s.setters c k).Pairwise fun later b =>
        ∀ old, (s.enter objects block).blocks[later]? = some old → old.own = false → b ∈ old.path := by
      refine (good.enclosed c k).imp_of_mem ?_
      intro later b listed _ encloses old found
      exact encloses old ((List.getElem?_append_left (olds c k later listed)).symm.trans found)
    rw [setters_enter good]
    split
    · rename_i here
      obtain ⟨rfl,some_⟩ := here
      refine List.pairwise_cons.mpr ⟨?_,before⟩
      intro b listed new found foreign
      cases List.getElem?_concat_length.symm.trans found
      exact inside foreign k some_ b listed
    · exact before
  · exact List.pairwise_cons.mpr ⟨fun b listed => good.bound b listed,good.sorted⟩
  · intro b listed
    show b < (s.blocks ++ [block]).length
    rw [List.length_append]
    rcases List.mem_cons.mp listed with rfl | old
    · exact Nat.lt_succ_self _
    · exact Nat.lt_succ_of_lt (good.bound b old)
  · intro b listed
    show b < (s.blocks ++ [block]).length
    rw [List.length_append]
    exact Nat.lt_succ_of_lt (good.consumed b listed)
  · exact good.common
  · intro b old listed
    rcases party_append listed with found | ⟨rfl,rfl⟩
    · exact Placed.enter good found objects block
    · exact placed

/-- The blocks in whose callbacks the code runs are of the context that it sees. -/
theorem Good.scope_sees {s : System Value} (good : Good s) {at_ : Option Nat} (valid : at_.all (· < s.blocks.length) = true) :
    ∀ a ∈ s.scope at_, ∃ outer, s.blocks[a]? = some outer ∧ s.currentContext at_ = some outer.context := by
  intro a within
  cases at_ with
  | none => cases within
  | some x =>
    have inside : x < s.blocks.length := by simpa using valid
    obtain ⟨inner,there⟩ : ∃ inner, s.blocks[x]? = some inner := ⟨_,List.getElem?_eq_getElem inside⟩
    have found : ∃ outer, s.blocks[a]? = some outer := by
      rcases List.mem_cons.mp within with rfl | around
      · exact ⟨inner,there⟩
      · simp only [there,Option.map_some,Option.getD_some] at around
        obtain ⟨outer,found,_⟩ := (good.placed x inner there).around a around
        exact ⟨outer,found⟩
    obtain ⟨outer,found⟩ := found
    exact ⟨outer,found,good.sees found within⟩

/-- A block of its own object is the outermost one that code runs in. -/
theorem Good.scope_outermost {s : System Value} (good : Good s) {at_ : Option Nat} {o : Nat} {outer : Block Value}
    (found : s.blocks[o]? = some outer) (own : outer.own = true) (within : o ∈ s.scope at_) : ∀ inner ∈ s.scope at_, o ≤ inner := by
  cases at_ with
  | none => cases within
  | some x =>
    cases there : s.blocks[x]? with
    | none =>
      simp only [System.scope,there,Option.map_none,Option.getD_none,List.mem_singleton] at within ⊢
      rintro inner rfl
      exact Nat.le_of_eq within
    | some inner =>
      simp only [System.scope,there,Option.map_some,Option.getD_some] at within ⊢
      exact (good.placed x inner there).outermost o outer found own within

theorem no_context {s : System Value} {at_ : Option Nat} (valid : at_.all (· < s.blocks.length) = true) (none_ : s.currentContext at_ = none) :
    at_ = none ∧ s.before = none := by
  cases at_ with
  | none => exact ⟨rfl,Option.map_eq_none_iff.mp none_⟩
  | some x =>
    have inside : x < s.blocks.length := by simpa using valid
    rw [System.currentContext,List.getElem?_eq_getElem inside] at none_
    cases none_

/-- A block overwrites a context inside of the running blocks that have set its keys there. -/
theorem Good.overwrite {s : System Value} (good : Good s) {at_ : Option Nat} (valid : at_.all (· < s.blocks.length) = true) {c : Nat}
    (sees : s.currentContext at_ = some c) (given : Nat)
    (nested : ∀ k, (s.objects given k).isSome → ∀ b ∈ s.setters c k, b ∈ s.scope at_) : Good (s.withTopContext at_ given) := by
  unfold System.withTopContext
  simp only [sees]
  refine good.enter ?_ ?_ (fun _ => nested) ⟨?_,?_,?_,?_,?_,?_⟩
  · intro c' k untouched
    by_cases here : c' = c
    · subst here
      have unset : s.objects given k = none := by simpa using untouched
      rw [Function.update_self,unset,Option.none_or]
    · rw [Function.update_of_ne here]
  · intro k sets
    refine ⟨?_,if_pos sets⟩
    show Function.update s.objects c _ c k = _
    rw [Function.update_self]
    exact Option.or_of_isSome sets
  · cases at_ with
    | none =>
      obtain ⟨props,was,rfl⟩ := Option.map_eq_some_iff.mp sees
      exact good.common (by rw [was]; rfl)
    | some x =>
      obtain ⟨inner,there,rfl⟩ := Option.map_eq_some_iff.mp sees
      exact (good.placed x inner there).allocated
  · intro was
    refine ⟨rfl,?_⟩
    cases at_ with
    | none =>
      obtain ⟨props,_,rfl⟩ := Option.map_eq_some_iff.mp sees
      rfl
    | some x =>
      obtain ⟨inner,there,rfl⟩ := Option.map_eq_some_iff.mp sees
      exact ((good.placed x inner there).common was).2
  · intro own
    cases own
  · intro a around
    obtain ⟨outer,found,same⟩ := good.scope_sees valid a around
    cases sees.symm.trans same
    exact ⟨outer,(List.getElem?_append_left (List.getElem?_eq_some_iff.mp found).1).trans found,rfl⟩
  · intro o outer listed own within inner around
    rcases party_append listed with found | ⟨rfl,rfl⟩
    · rcases List.mem_cons.mp within with rfl | within
      · exact absurd (List.getElem?_eq_some_iff.mp found).1 (Nat.lt_irrefl _)
      · rcases List.mem_cons.mp around with rfl | around
        · exact Nat.le_of_lt (List.getElem?_eq_some_iff.mp found).1
        · exact good.scope_outermost found own within inner around
    · cases own
  · intro own
    cases own

/-- A block without a context runs in the object that it is given. -/
theorem Good.isolate {s : System Value} (good : Good s) {at_ : Option Nat} (valid : at_.all (· < s.blocks.length) = true)
    (none_ : s.currentContext at_ = none) {given : Nat} (allocated : given < s.allocated) : Good (s.withTopContext at_ given) := by
  obtain ⟨rfl,alone⟩ := no_context valid none_
  unfold System.withTopContext
  simp only [none_]
  refine good.enter (fun _ _ _ => rfl) (fun _ _ => ⟨rfl,rfl⟩) ?_ ⟨allocated,?_,fun _ => rfl,?_,?_,?_⟩
  · intro foreign
    cases foreign
  · intro was
    replace was : s.before.isSome := was
    rw [alone] at was
    cases was
  · intro a around
    cases around
  · intro o outer _ _ within inner around
    rw [List.mem_singleton.mp within,List.mem_singleton.mp around]
  · intro _ consumed
    exact absurd (good.consumed _ consumed) (Nat.lt_irrefl _)

/-- The values of some properties change, and the consumed IDs, and blocks may have settled. -/
theorem Good.change {s s' : System Value} (good : Good s) (blocks : s'.blocks = s.blocks) (before : s'.before = s.before)
    (allocated : s'.allocated = s.allocated) (fewer : s'.running.Sublist s.running)
    (consumed : ∀ b, some b ∈ s'.consumed → some b ∈ s.consumed ∨ b < s.blocks.length ∧ ∀ block, s.blocks[b]? = some block →
      block.own = true → ∀ older ∈ s.setters block.context .idAssignedForNextWorkflow, b ≤ older)
    (stacked : ∀ c k, ∃ base, Stacked s' k (s'.setters c k) (s'.objects c k) base ∧ (c = 0 → s.before.isSome → base = s'.base k)) :
    Good s' := by
  have setters : ∀ c k, (s'.setters c k).Sublist (s.setters c k) := by
    intro c k
    have same : s'.sets c k = s.sets c k := by
      funext b
      simp only [System.sets,blocks]
    simp only [System.setters,same]
    exact fewer.filter _
  constructor
  · rwa [before]
  · intro c k
    rw [blocks]
    exact (good.enclosed c k).sublist (setters c k)
  · exact good.sorted.sublist fewer
  · intro b listed
    rw [blocks]
    exact good.bound b (fewer.mem listed)
  · intro b listed
    rw [blocks]
    rcases consumed b listed with old | ⟨inside,_⟩
    · exact good.consumed b old
    · exact inside
  · rw [before,allocated]
    exact good.common
  · intro b block found
    rw [blocks] at found
    have placed := good.placed b block found
    refine ⟨by rw [allocated]; exact placed.allocated,by rw [before]; exact placed.common,placed.found,by rw [blocks]; exact placed.around,
      by rw [blocks]; exact placed.outermost,?_⟩
    intro own listed older set
    have set := (setters block.context .idAssignedForNextWorkflow).mem set
    rcases consumed b listed with old | ⟨_,oldest⟩
    · exact placed.oldest own old older set
    · exact oldest block found own older set

theorem filter_out {above under : List Nat} {b : Nat} (later : ∀ x ∈ above, b < x) (older : ∀ x ∈ under, x < b) :
    (above ++ b :: under).filter (· ≠ b) = above ++ under := by
  have stays : ∀ l : List Nat, (∀ x ∈ l, x ≠ b) → l.filter (· ≠ b) = l :=
    fun l other => List.filter_eq_self.mpr fun x listed => decide_eq_true (other x listed)
  rw [List.filter_append,List.filter_cons,if_neg (by simp),stays above fun x listed => Nat.ne_of_gt (later x listed),
    stays under fun x listed => Nat.ne_of_lt (older x listed)]

/-- The stack of a key without a block of its own object. -/
theorem Good.stacked_settle {s : System Value} (good : Good s) {b : Nat} {block : Block Value} (found : s.blocks[b]? = some block)
    (own : block.own = true) (c : Nat) (k : Key) : ∃ base, Stacked s k ((s.setters c k).filter (· ≠ b)) (s.objects c k) base ∧
      (c = 0 → s.before.isSome → base = s.base k) := by
  have alone : ¬ s.before.isSome := by
    intro was
    rw [((good.placed b block found).common was).1] at own
    cases own
  obtain ⟨base,stacked,common⟩ := good.stacked c k
  by_cases set : b ∈ s.setters c k
  · obtain ⟨above,under,order,later,older⟩ := good.split set
    rw [order] at stacked ⊢
    rw [filter_out later older]
    obtain ⟨mid,upper,top,_,found',lower⟩ := stacked_append.mp stacked
    cases found.symm.trans found'
    by_cases unconsumed : k = .idAssignedForNextWorkflow → some b ∉ s.consumed
    · rw [cell_own good found own unconsumed] at top
      exact ⟨base,stacked_append.mpr ⟨mid,upper,top ▸ lower⟩,common⟩
    · -- the block whose ID is consumed is the oldest one
      simp only [Classical.not_imp,not_not] at unconsumed
      obtain ⟨rfl,consumed⟩ := unconsumed
      obtain ⟨_,here,_⟩ := setter_block found set
      have oldest := (good.placed b block found).oldest own consumed
      rw [here,order] at oldest
      have empty : under = [] := by
        refine List.eq_nil_iff_forall_not_mem.mpr ?_
        intro x listed
        have first := oldest x (List.mem_append_right _ (List.mem_cons_of_mem _ listed))
        exact absurd (older x listed) (by omega)
      rw [empty,List.append_nil]
      exact ⟨mid,upper,fun _ was => absurd was alone⟩
  · have same : (s.setters c k).filter (· ≠ b) = s.setters c k :=
      List.filter_eq_self.mpr fun x listed => decide_eq_true fun here => set (here ▸ listed)
    rw [same]
    exact ⟨base,stacked,common⟩

/-- A block settles, and puts back what it has found where it is not in an object of its own. -/
theorem Good.settle {s : System Value} (good : Good s) {b : Nat} {block : Block Value} (running : b ∈ s.running)
    (found : s.blocks[b]? = some block)
    (nested : block.own = false → ∀ k, (s.objects block.given k).isSome = (block.options k).isSome ∧
      ((block.options k).isSome → ∀ later ∈ s.setters block.context k, later ≤ b)) :
    Good { s with
      objects :=
        if block.own then s.objects
        else Function.update s.objects block.context fun k =>
          if (s.objects block.given k).isSome then block.existing k else s.objects block.context k
      running := s.running.filter (· ≠ b) } := by
  have settled : ∀ (objects : Nat → Props Value) c k,
      ({ s with objects := objects,running := s.running.filter (· ≠ b) } : System Value).setters c k = (s.setters c k).filter (· ≠ b) := by
    intro objects c k
    simp only [System.setters,List.filter_filter]
    exact List.filter_congr fun later _ => Bool.and_comm _ _
  refine good.change rfl rfl rfl List.filter_sublist (fun _ => .inl) ?_
  intro c k
  rw [settled]
  cases isOwn : block.own with
  | true =>
    obtain ⟨base,stacked,common⟩ := good.stacked_settle found isOwn c k
    exact ⟨base,stacked.same (by rfl) (by rfl),common⟩
  | false =>
    obtain ⟨keys,last⟩ := nested isOwn k
    obtain ⟨base,stacked,common⟩ := good.stacked c k
    refine ⟨base,?_,common⟩
    simp only [Bool.false_eq_true,if_false]
    by_cases set : b ∈ s.setters c k
    · obtain ⟨_,here,sets⟩ := setter_block found set
      subst here
      obtain ⟨above,under,order,later,older⟩ := good.split set
      -- no block that has set the key after it is running
      obtain rfl : above = [] := by
        refine List.eq_nil_iff_forall_not_mem.mpr ?_
        intro x listed
        have first := last sets x (order ▸ List.mem_append_left _ listed)
        exact absurd (later x listed) (by omega)
      rw [order] at stacked
      obtain ⟨_,_,found',lower⟩ := stacked
      cases found.symm.trans found'
      rw [order,filter_out later older,Function.update_self,keys,if_pos sets]
      exact lower.same (by rfl) (by rfl)
    · have same : (s.setters c k).filter (· ≠ b) = s.setters c k :=
        List.filter_eq_self.mpr fun x listed => decide_eq_true fun here => set (here ▸ listed)
      have value : Function.update s.objects block.context
          (fun k => if (s.objects block.given k).isSome then block.existing k else s.objects block.context k) c k = s.objects c k := by
        by_cases here : c = block.context
        · subst here
          have unset : ¬ (block.options k).isSome := fun sets => set (mem_setters.mpr ⟨running,block,found,rfl,sets⟩)
          rw [Function.update_self,keys,if_neg unset]
        · rw [Function.update_of_ne here]
      rw [same,value]
      exact stacked.same (by rfl) (by rfl)

theorem find_of_all {l : List Nat} {p : Nat → Bool} (all : ∀ b ∈ l, p b = true) : l.find? p = l.head? := by
  cases l with
  | nil => rfl
  | cons b rest => rw [List.find?_cons,all b List.mem_cons_self,List.head?_cons]

theorem cell_consumed (s : System Value) (objects : Nat → Props Value) {who : Option Nat} {b : Nat} {k : Key}
    (other : k = .idAssignedForNextWorkflow → who ≠ some b) :
    ({ s with objects := objects,consumed := who :: s.consumed } : System Value).cell b k = s.cell b k := by
  simp only [System.cell]
  by_cases next : k = .idAssignedForNextWorkflow
  · have differ := other next
    simp only [next,true_and,List.mem_cons,eq_comm (a := some b),differ,false_or]
  · simp [next]

theorem base_consumed (s : System Value) (objects : Nat → Props Value) {who : Option Nat} {k : Key}
    (other : k = .idAssignedForNextWorkflow → who ≠ none) :
    ({ s with objects := objects,consumed := who :: s.consumed } : System Value).base k = s.base k := by
  simp only [System.base]
  by_cases next : k = .idAssignedForNextWorkflow
  · have differ := other next
    simp only [next,true_and,List.mem_cons,eq_comm (a := none),differ,false_or]
  · simp [next]

/-- Where there is a common context it is the only one. -/
theorem Good.only {s : System Value} (good : Good s) (was : s.before.isSome) {at_ : Option Nat} {c : Nat}
    (sees : s.currentContext at_ = some c) : c = 0 := by
  cases at_ with
  | none =>
    obtain ⟨_,_,rfl⟩ := Option.map_eq_some_iff.mp sees
    rfl
  | some x =>
    obtain ⟨block,found,rfl⟩ := Option.map_eq_some_iff.mp sees
    exact ((good.placed x block found).common was).2

/-- The next-workflow ID is consumed by what runs in the blocks that have set it. -/
theorem Good.consume {s : System Value} (good : Good s) {at_ : Option Nat} {c : Nat} (sees : s.currentContext at_ = some c)
    (nested : ∀ b ∈ s.setters c .idAssignedForNextWorkflow, b ∈ s.scope at_) :
    Good { s with
      objects := Function.update s.objects c (Function.update (s.objects c) .idAssignedForNextWorkflow (some none))
      consumed := (s.setters c .idAssignedForNextWorkflow).head? :: s.consumed } := by
  refine good.change rfl rfl rfl (List.Sublist.refl _) ?_ ?_
  · intro b listed
    rcases List.mem_cons.mp listed with new | old
    · have set : b ∈ s.setters c .idAssignedForNextWorkflow := List.mem_of_head? new.symm
      refine .inr ⟨good.bound b (mem_setters.mp set).1,?_⟩
      intro block found own older set'
      rw [(setter_block found set).2.1] at set'
      exact good.scope_outermost found own (nested b set) older (nested older set')
    · exact .inl old
  · intro c' k
    obtain ⟨base,stacked,common⟩ := good.stacked c' k
    show ∃ base, Stacked _ k (s.setters c' k) (Function.update s.objects c _ c' k) base ∧ _
    by_cases touched : c' = c ∧ k = .idAssignedForNextWorkflow
    · obtain ⟨rfl,rfl⟩ := touched
      rw [Function.update_self,Function.update_self]
      cases order : s.setters c' .idAssignedForNextWorkflow with
      | nil => exact ⟨_,rfl,fun _ _ => by simp [System.base]⟩
      | cons top under =>
        rw [order] at stacked
        obtain ⟨_,block,found,lower⟩ := stacked
        have sorted : (s.setters c' .idAssignedForNextWorkflow).Pairwise (· > ·) := good.sorted.filter _
        rw [order] at sorted
        refine ⟨base,⟨by simp [System.cell],block,found,?_⟩,?_⟩
        · refine Stacked.congr ?_ (fun _ _ => by rfl) lower
          intro b listed
          refine cell_consumed s _ ?_
          intro _ here
          cases here
          exact Nat.lt_irrefl _ ((List.pairwise_cons.mp sorted).1 _ listed)
        · intro first was
          refine (common first was).trans (base_consumed s _ ?_).symm
          intro _ here
          cases here
    · have value : Function.update s.objects c (Function.update (s.objects c) .idAssignedForNextWorkflow (some none)) c' k =
          s.objects c' k := by
        by_cases here : c' = c
        · subst here
          rw [Function.update_self,Function.update_of_ne fun next => touched ⟨rfl,next⟩]
        · rw [Function.update_of_ne here]
      rw [value]
      refine ⟨base,?_,?_⟩
      · refine Stacked.congr ?_ (fun _ _ => by rfl) stacked
        intro b set
        refine cell_consumed s _ ?_
        intro next here
        have set' : b ∈ s.setters c .idAssignedForNextWorkflow := List.mem_of_head? here
        obtain ⟨_,block,found,same,_⟩ := mem_setters.mp set
        exact touched ⟨same.symm.trans (setter_block found set').2.1,next⟩
      · intro first was
        refine (common first was).trans (base_consumed s _ ?_).symm
        intro next _
        exact touched ⟨first.trans (good.only was sees).symm,next⟩

theorem step_good {s s' : System Value} {e : Event Value} (good : Good s) (nested : Nested truthy s e) (taken : step truthy s e = some s') :
    Good s' := by
  cases e with
  | withTopContext at_ options =>
    simp only [step] at taken
    split at taken
    · rename_i guard
      obtain ⟨valid,inside⟩ := guard
      cases taken
      have same : (s.allocate options).1.currentContext at_ = s.currentContext at_ ∧ (s.allocate options).1.blocks = s.blocks := by
        cases options <;> exact ⟨rfl,rfl⟩
      rw [← same.2] at valid
      cases sees : s.currentContext at_ with
      | some c =>
        refine (good.allocate options).overwrite valid (same.1.trans sees) _ ?_
        intro k sets b set
        have set : b ∈ s.setters c k := by cases options <;> exact set
        have within := nested c sees k sets b set
        cases options <;> exact within
      | none => exact (good.allocate options).isolate valid (same.1.trans sees) inside
    · cases taken
  | settle b =>
    simp only [step] at taken
    split at taken
    · rename_i running
      obtain ⟨block,found,rfl⟩ := Option.map_eq_some_iff.mp taken
      exact good.settle running found (nested block found)
    · cases taken
  | getNextWFID at_ =>
    simp only [step,Option.some.injEq] at taken
    cases sees : s.currentContext at_ with
    | some c =>
      simp only [sees] at taken
      by_cases assigned : isTruthy truthy (s.objects c .idAssignedForNextWorkflow) = true
      · have within := nested c sees assigned
        -- every block that has set the ID is around, the last one too
        rw [if_pos assigned,find_of_all fun b set => decide_eq_true (within b set)] at taken
        exact taken ▸ good.consume sees within
      · rw [if_neg assigned] at taken
        exact taken ▸ good
    | none =>
      simp only [sees] at taken
      exact taken ▸ good

theorem start_good (before : Option (Props Value)) : Good (start before) := by
  constructor
  · intro c k
    refine ⟨(start before).objects c k,rfl,?_⟩
    intro _ was
    obtain ⟨props,rfl⟩ := Option.isSome_iff_exists.mp was
    simp [start,System.base]
  · intro c k
    exact .nil
  · exact .nil
  · intro b listed
    cases listed
  · intro b listed
    cases listed
  · intro was
    obtain ⟨props,rfl⟩ := Option.isSome_iff_exists.mp was
    exact Nat.succ_pos _
  · intro b block found
    cases found

/-- Blocks that are nested where they set the same do not interfere. -/
theorem blocks_scoped {before : Option (Props Value)} {events : List (Event Value)} {s : System Value}
    (nested : Along (step truthy) (Nested truthy) (start before) events) (run : Runs (step truthy) (start before) events s) : Scoped s :=
  (along_invariant (fun _ _ _ good condition taken => step_good good condition taken) (start_good before) nested run).scoped

end

/-! ### Blocks that overlap -/

/-- The common context has a queue. -/
def mailing : Props Item := fun k => if k = .queueAssignedForWorkflows then some (some (.text "mail")) else none

/-- A workflow starts in a block around the one that asks for its ID, and other blocks set other items meanwhile. -/
def woven : List (Event Item) :=
  [.withTopContext none (withNextWorkflowID "wf-1"),.withTopContext (some 0) (withAuthedContext "alice" ["admin"]),
    .withTopContext none (withWorkflowQueue "reports"),.getNextWFID (some 1),.withTopContext (some 1) (withWorkflowTimeout (some 500)),
    .settle 3,.settle 1]

theorem blocks_scoped_woven : ∃ s, Runs (step Item.truthy) (start (some mailing)) woven s ∧
    (s.running,s.consumed) = ([2,0],[some 0]) ∧ Scoped s := by
  have ran : (woven.foldlM (step Item.truthy) (start (some mailing))).map (fun s => (s.running,s.consumed)) =
      some ([2,0],[some 0]) := by decide +kernel
  obtain ⟨s,run,ends⟩ := Option.map_eq_some_iff.mp ran
  exact ⟨s,run,ends,blocks_scoped (by decide +kernel) run⟩

/-- Two blocks of one context whose callbacks overlap: the first one settles first. -/
def overlapping : List (Event Item) :=
  [.withTopContext none (withAuthedContext "alice" []),.withTopContext none (withAuthedContext "bob" []),.settle 0,.settle 1]

/-- Two blocks without a context are given one object, and in the callback of the first one its name is overwritten. -/
def oneObject : List (Event Item) :=
  [.withTopContext none (withNamedContext "cron"),.withTopContext none (.object 0),.withTopContext (some 0) (withNamedContext "mailer")]

/-- The first callback reads the user of the second one, and in the end the context is left with the first user. Without a context it
    happens to blocks that are given one object. -/
theorem blocks_overlap :
    (∃ s, Runs (step Item.truthy) (start (some fun _ => none)) (overlapping.take 2) s ∧ s.running = [1,0] ∧
      s.read (some 0) .authenticatedUser = some (some (.text "bob"))) ∧
    (∃ s, Runs (step Item.truthy) (start (some fun _ => none)) overlapping s ∧ s.running = [] ∧
      s.read none .authenticatedUser = some (some (.text "alice"))) ∧
    (∃ s, Runs (step Item.truthy) (start none) oneObject s ∧ s.running = [2,1,0] ∧
      s.cell 1 .operationCaller = some (some (.text "cron")) ∧ s.read (some 1) .operationCaller = some (some (.text "mailer"))) ∧
    ¬ ∀ (before : Option (Props Item)) events s, Runs (step Item.truthy) (start before) events s → Scoped s := by
  have during : ((overlapping.take 2).foldlM (step Item.truthy) (start (some fun _ => none))).map
      (fun s => (s.running,s.read (some 0) .authenticatedUser)) = some ([1,0],some (some (.text "bob"))) := by decide +kernel
  have after : (overlapping.foldlM (step Item.truthy) (start (some fun _ => none))).map
      (fun s => (s.running,s.read none .authenticatedUser,s.before.isSome,s.base .authenticatedUser)) =
        some ([],some (some (.text "alice")),true,none) := by decide +kernel
  have common : (oneObject.foldlM (step Item.truthy) (start none)).map
      (fun s => (s.running,s.cell 1 .operationCaller,s.read (some 1) .operationCaller)) =
        some ([2,1,0],some (some (.text "cron")),some (some (.text "mailer"))) := by decide +kernel
  obtain ⟨s,run,ends⟩ := Option.map_eq_some_iff.mp during
  obtain ⟨s',run',ends'⟩ := Option.map_eq_some_iff.mp after
  obtain ⟨s'',run'',ends''⟩ := Option.map_eq_some_iff.mp common
  simp only [Prod.mk.injEq] at ends ends' ends''
  obtain ⟨settled,reads,was,base⟩ := ends'
  refine ⟨⟨s,run,ends⟩,⟨s',run',settled,reads⟩,⟨s'',run'',ends''⟩,?_⟩
  intro all
  obtain ⟨props,was'⟩ := Option.isSome_iff_exists.mp was
  rw [System.read,System.currentContext,was',Option.map_some,Option.bind_some,(all _ _ s' run').restored settled was,base] at reads
  cases reads

end Dbos.ContextBlocks
