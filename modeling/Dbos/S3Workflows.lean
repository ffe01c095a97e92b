import Dbos.Pg.Journal

/-!
The workflows of `packages/aws-s3-workflows/src/s3_utils.ts`, which keep a table of files in sync with the contents of S3 for one file. The
callbacks do what their descriptions say: those on the database are transactions, and those on S3 may have had their effect when they
throw. A workflow is recovered from its recorded steps after a crash; the workflows on a file run one after the other.
-/
namespace Dbos.S3Workflows
open Dbos.Pg

/-! ### The workflows -/

/-- The callbacks, and the two operations of DBOS that a presigned upload makes. -/
inductive Action
  | newActiveFile
  | newPendingFile
  | fileActivated
  | fileDeleted
  | putS3Contents
  | createPresignedPost
  | validateS3Upload
  | deleteS3Object
  | setEvent
  | recv
  deriving DecidableEq

/-- A step throws or returns a value, of which only whether it is truthy counts. -/
inductive Outcome
  | returned (truthy : Bool)
  | threw
  deriving DecidableEq

inductive Result
  | success
  | failure
  deriving DecidableEq

/-- What is registered. The last one knows whether there is a callback `validateS3Upload`. -/
inductive Workflow
  | delete
  | upload
  | presignedUpload (validates : Bool)
  deriving DecidableEq

/-- `registerS3DeleteWorkflow`. -/
def deleteWorkflow : List Outcome → Action ⊕ Result
  | [] => .inl .fileDeleted
  | .threw :: _ => .inr .failure
  | [.returned _] => .inl .deleteS3Object
  | .returned _ :: .threw :: _ => .inr .failure
  | .returned _ :: .returned _ :: _ => .inr .success

/-- `registerS3UploadWorkflow`: the object is deleted when it could not be put. -/
def uploadWorkflow : List Outcome → Action ⊕ Result
  | [] => .inl .putS3Contents
  | [.threw] => .inl .deleteS3Object
  | .threw :: _ :: _ => .inr .failure
  | [.returned _] => .inl .newActiveFile
  | .returned _ :: .threw :: _ => .inr .failure
  | .returned _ :: .returned _ :: _ => .inr .success

/-- The `catch` of `registerS3PresignedUploadWorkflow`. -/
def cleanUp : List Outcome → Action ⊕ Result
  | [] => .inl .fileDeleted
  | [.returned _] => .inl .deleteS3Object
  | _ => .inr .failure

/-- From the activation on. -/
def activating : List Outcome → Action ⊕ Result
  | [] => .inl .fileActivated
  | .threw :: rest => cleanUp rest
  | .returned _ :: _ => .inr .success

/-- From the validation on, if there is one. -/
def validating (validates : Bool) (outcomes : List Outcome) : Action ⊕ Result :=
  if validates then
    match outcomes with
    | [] => .inl .validateS3Upload
    | .threw :: rest => cleanUp rest
    | .returned _ :: rest => activating rest
  else activating outcomes

/-- From the `recv` on: a falsy message is an error. -/
def awaiting (validates : Bool) : List Outcome → Action ⊕ Result
  | [] => .inl .recv
  | .returned true :: rest => validating validates rest
  | _ :: rest => cleanUp rest

/-- `registerS3PresignedUploadWorkflow`: what comes before the `recv` is not in the `try`. -/
def presignedUploadWorkflow (validates : Bool) : List Outcome → Action ⊕ Result
  | [] => .inl .newPendingFile
  | .threw :: _ => .inr .failure
  | [.returned _] => .inl .createPresignedPost
  | .returned _ :: .threw :: _ => .inr .failure
  | [.returned _,.returned _] => .inl .setEvent
  | .returned _ :: .returned _ :: .threw :: _ => .inr .failure
  | .returned _ :: .returned _ :: .returned _ :: rest => awaiting validates rest

def Workflow.next : Workflow → List Outcome → Action ⊕ Result
  | .delete => deleteWorkflow
  | .upload => uploadWorkflow
  | .presignedUpload validates => presignedUploadWorkflow validates

/-! ### The file -/

inductive FileStatus
  | pending
  | active
  deriving DecidableEq

/-- The record of the file, whether S3 has its contents, whether a presigned post is out, and whether the client has sent a truthy
    `uploadfinish` to the workflow that runs. -/
structure Storage where
  file : Option FileStatus := none
  object : Bool := false
  posted : Bool := false
  finished : Bool := false
  deriving DecidableEq

/-- What the database holds after a callback. A file may be written as pending. -/
def effect (a : Action) (w : Storage) (o : Outcome) (w' : Storage) : Bool :=
  match a,o with
  | .newActiveFile,.returned _ | .fileActivated,.returned _ => w' = { w with file := some .active }
  | .newPendingFile,.returned _ => w' = w ∨ w' = { w with file := some .pending }
  | .fileDeleted,.returned _ => w' = { w with file := none }
  | .putS3Contents,.returned _ => w' = { w with object := true }
  | .putS3Contents,.threw => w' = w ∨ w' = { w with object := true }
  | .deleteS3Object,.returned _ => w' = { w with object := false }
  | .deleteS3Object,.threw => w' = w ∨ w' = { w with object := false }
  | .createPresignedPost,.returned _ => w' = { w with posted := true }
  | .createPresignedPost,.threw => w' = w ∨ w' = { w with posted := true }
  | .recv,.returned truthy => w' = w ∧ (truthy = true → w.finished = true)
  | _,_ => w' = w

/-- Any workflow may be started for a file. Messages of clients are for one workflow. -/
def begins (_ : Workflow) (w : Storage) : Option Storage := some { w with finished := false }

/-- A client uploads with a presigned post, or says that it has. -/
def client (w w' : Storage) : Bool := w.posted = true ∧ w' = { w with object := true } ∨ w' = { w with finished := true }

/-- The workflows on the file, with crashes and recoveries. -/
def system : Journaling Workflow Action Outcome Result Storage where
  begin := begins
  next := Workflow.next
  effect := effect
  outside := client

/-! ### The order of the steps -/

/-- The step that comes after a step with an outcome. -/
inductive Edge : Action → Outcome → Action → Prop
  | put (truthy : Bool) : Edge .putS3Contents (.returned truthy) .newActiveFile
  | putFails : Edge .putS3Contents .threw .deleteS3Object
  | pending (truthy : Bool) : Edge .newPendingFile (.returned truthy) .createPresignedPost
  | posted (truthy : Bool) : Edge .createPresignedPost (.returned truthy) .setEvent
  | published (truthy : Bool) : Edge .setEvent (.returned truthy) .recv
  | validate : Edge .recv (.returned true) .validateS3Upload
  | activate : Edge .recv (.returned true) .fileActivated
  | timedOut (o : Outcome) : Edge .recv o .fileDeleted
  | valid (truthy : Bool) : Edge .validateS3Upload (.returned truthy) .fileActivated
  | invalid : Edge .validateS3Upload .threw .fileDeleted
  | unactivated : Edge .fileActivated .threw .fileDeleted
  | deleted (truthy : Bool) : Edge .fileDeleted (.returned truthy) .deleteS3Object

/-- The step that a workflow ends with, and its outcome. -/
inductive Last : Action → Outcome → Prop
  | deleted (o : Outcome) : Last .deleteS3Object o
  | created (o : Outcome) : Last .newActiveFile o
  | activated (truthy : Bool) : Last .fileActivated (.returned truthy)
  | fileDeleted : Last .fileDeleted .threw
  | newPendingFile : Last .newPendingFile .threw
  | createPresignedPost : Last .createPresignedPost .threw
  | setEvent : Last .setEvent .threw

/-- What follows the last of some steps. -/
def Ordered (next : List Outcome → Action ⊕ Result) : Prop :=
  ∀ os a o, next os = .inl a → (∀ b, next (os ++ [o]) = .inl b → Edge a o b) ∧ ∀ r, next (os ++ [o]) = .inr r → Last a o

theorem ordered_cleanUp : Ordered cleanUp := by
  intro os a o now
  rcases os with _ | ⟨first,_ | ⟨second,rest⟩⟩
  · cases now
    cases o <;> refine ⟨?_,?_⟩ <;> intro _ then_ <;> cases then_ <;> constructor
  · cases first <;> cases now
    exact ⟨nofun,fun _ _ => .deleted o⟩
  · cases first <;> cases now

theorem ordered_activating : Ordered activating := by
  intro os a o now
  rcases os with _ | ⟨first,rest⟩
  · cases now
    cases o <;> refine ⟨?_,?_⟩ <;> intro _ then_ <;> cases then_ <;> constructor
  · cases first with
    | returned truthy => cases now
    | threw => exact ordered_cleanUp rest a o now

theorem ordered_validating (validates : Bool) : Ordered (validating validates) := by
  intro os a o now
  cases validates with
  | false => exact ordered_activating os a o now
  | true =>
    rcases os with _ | ⟨first,rest⟩
    · cases now
      cases o <;> refine ⟨?_,?_⟩ <;> intro _ then_ <;> cases then_ <;> constructor
    · cases first with
      | returned truthy => exact ordered_activating rest a o now
      | threw => exact ordered_cleanUp rest a o now

theorem ordered_awaiting (validates : Bool) : Ordered (awaiting validates) := by
  intro os a o now
  rcases os with _ | ⟨first,rest⟩
  · cases now
    rcases o with ⟨_ | _⟩ | _ <;> cases validates <;> refine ⟨?_,?_⟩ <;> intro _ then_ <;> cases then_ <;> constructor
  · rcases first with ⟨_ | _⟩ | _
    · exact ordered_cleanUp rest a o now
    · exact ordered_validating validates rest a o now
    · exact ordered_cleanUp rest a o now

theorem ordered_next (wf : Workflow) : Ordered wf.next := by
  intro os a o now
  cases wf with
  | delete =>
    rcases os with _ | ⟨⟨_⟩ | _,_ | ⟨⟨_⟩ | _,rest⟩⟩ <;> cases now
    · cases o <;> refine ⟨?_,?_⟩ <;> intro _ then_ <;> cases then_ <;> constructor
    · cases o <;> exact ⟨nofun,fun _ _ => .deleted _⟩
  | upload =>
    rcases os with _ | ⟨⟨_⟩ | _,_ | ⟨⟨_⟩ | _,rest⟩⟩ <;> cases now
    · cases o <;> refine ⟨?_,?_⟩ <;> intro _ then_ <;> cases then_ <;> constructor
    · cases o <;> exact ⟨nofun,fun _ _ => .created _⟩
    · exact ⟨nofun,fun _ _ => .deleted _⟩
  | presignedUpload validates =>
    rcases os with _ | ⟨⟨_⟩ | _,_ | ⟨⟨_⟩ | _,_ | ⟨⟨_⟩ | _,rest⟩⟩⟩
    case cons.returned.cons.returned.cons.returned => exact ordered_awaiting validates rest a o now
    all_goals cases now
    all_goals cases o <;> refine ⟨?_,?_⟩ <;> intro _ then_ <;> cases then_ <;> constructor

/-! ### What a step needs -/

/-- The next step of the workflow that runs, if it has one, meets a condition. -/
def nextIs (condition : Action → Bool) (s : Journaling.State Workflow Outcome Storage) : Bool :=
  s.running.any fun r => (r.program.next r.journal).elim condition fun _ => false

/-- The contents of an active file can be put, and clients say of nothing that is not in S3 that they have uploaded it. -/
def careful (s : Journaling.State Workflow Outcome Storage) : Journaling.Event Workflow Outcome Storage → Bool
  | .perform .threw _ => !nextIs (· = .putS3Contents) s || s.world.file ≠ some .active
  | .outside w' => w'.finished = s.world.finished || s.world.object
  | _ => true

/-- What holds before a step; `gone` is what the record of the file is when an object may be deleted. -/
def Needs (gone : Option FileStatus → Prop) (a : Action) (w : Storage) : Prop :=
  match a with
  | .putS3Contents => w.file = some .active ∨ gone w.file
  | .deleteS3Object => gone w.file
  | .newActiveFile | .fileActivated | .validateS3Upload => w.object = true
  | .newPendingFile | .createPresignedPost | .setEvent | .recv => w.finished = true → w.object = true
  | .fileDeleted => True

section
variable {gone : Option FileStatus → Prop} {a b : Action} {o : Outcome} {w w' : Storage}

/-- A step that has had its effect can be run again. -/
theorem needs_again (needs : Needs gone a w) (has : effect a w o w' = true) : Needs gone a w' := by
  cases a <;> cases o <;> simp only [effect,decide_eq_true_eq] at has
  case newPendingFile.returned => rcases has with rfl | rfl <;> exact needs
  case createPresignedPost.threw => rcases has with rfl | rfl <;> exact needs
  case putS3Contents.threw => rcases has with rfl | rfl <;> exact needs
  case deleteS3Object.threw => rcases has with rfl | rfl <;> exact needs
  case recv.returned =>
    rw [has.1]
    exact needs
  all_goals
    subst has
    exact needs

theorem needs_next (none_ : gone none) (edge : Edge a o b) (safe : a = .putS3Contents → o = .threw → w.file ≠ some .active)
    (needs : Needs gone a w) (has : effect a w o w' = true) : Needs gone b w' := by
  cases edge <;> simp only [effect,decide_eq_true_eq] at has
  case put => rw [has]; exact rfl
  case putFails =>
    have absent : gone w.file := needs.resolve_left (safe rfl rfl)
    rcases has with rfl | rfl <;> exact absent
  case pending => rcases has with rfl | rfl <;> exact needs
  case posted | published | valid => rw [has]; exact needs
  case validate | activate =>
    rw [has.1]
    exact needs (has.2 trivial)
  case deleted => rw [has]; exact none_
  case timedOut | invalid | unactivated => trivial

/-- A client that uploads or says truly that it has leaves what a step needs. -/
theorem needs_client (needs : Needs gone a w) (changes : client w w' = true) (honest : w'.finished = w.finished ∨ w.object = true) :
    Needs gone a w' := by
  simp only [client,decide_eq_true_eq] at changes
  rcases changes with ⟨_,rfl⟩ | rfl
  · cases a <;> first | exact needs | exact rfl | exact fun _ => rfl
  · cases a with
    | newPendingFile | createPresignedPost | setEvent | recv =>
      intro _
      rcases honest with same | there
      · exact needs same.symm
      · exact there
    | _ => exact needs

theorem needs_begin {wf : Workflow} (begun : begins wf w = some w') (fresh : w.file = some .active ∨ gone w.file)
    (now : wf.next [] = .inl a) : Needs gone a w' := by
  cases begun
  cases wf <;> cases now
  · trivial
  · exact fresh
  · intro finished
    cases finished

end

/-! ### An active file has its contents -/

/-- An active file has its contents in S3. -/
def Backed (w : Storage) : Prop := w.file = some .active → w.object = true

theorem backed_effect {a : Action} {o : Outcome} {w w' : Storage} (backed : Backed w) (needs : Needs (· ≠ some .active) a w)
    (has : effect a w o w' = true) : Backed w' := by
  cases a <;> cases o <;> simp only [effect,decide_eq_true_eq] at has
  case newActiveFile.returned | fileActivated.returned =>
    subst has
    exact fun _ => needs
  case newPendingFile.returned =>
    rcases has with rfl | rfl
    · exact backed
    · intro active
      cases active
  case fileDeleted.returned =>
    subst has
    intro active
    cases active
  case putS3Contents.returned =>
    subst has
    exact fun _ => rfl
  case putS3Contents.threw =>
    rcases has with rfl | rfl
    · exact backed
    · exact fun _ => rfl
  case deleteS3Object.returned =>
    subst has
    exact fun active => absurd active needs
  case deleteS3Object.threw =>
    rcases has with rfl | rfl
    · exact backed
    · exact fun active => absurd active needs
  case createPresignedPost.threw => rcases has with rfl | rfl <;> exact backed
  case recv.returned =>
    rw [has.1]
    exact backed
  all_goals
    subst has
    exact backed

theorem backed_client {w w' : Storage} (backed : Backed w) (changes : client w w' = true) : Backed w' := by
  simp only [client,decide_eq_true_eq] at changes
  rcases changes with ⟨_,rfl⟩ | rfl
  · exact fun _ => rfl
  · exact backed

/-- What care means for the step that comes next. -/
theorem careful_put {s : Journaling.State Workflow Outcome Storage} {r : Journaling.Running Workflow Outcome} {a : Action} {o : Outcome}
    {w' : Storage} (meets : careful s (.perform o w') = true) (runs : s.running = some r) (now : r.program.next r.journal = .inl a) :
    a = .putS3Contents → o = .threw → s.world.file ≠ some .active := by
  rintro rfl rfl
  simpa [careful,nextIs,runs,now] using meets

theorem careful_client {s : Journaling.State Workflow Outcome Storage} {w' : Storage} (meets : careful s (.outside w') = true) :
    w'.finished = s.world.finished ∨ s.world.object = true := by
  simpa [careful] using meets

theorem backed_keeps : system.Keeps (fun s e => careful s e = true) Backed
    (fun wf os w => Backed w ∧ ∀ a, wf.next os = .inl a → Needs (· ≠ some .active) a w)
    (fun wf os o w => Backed w ∧ (∀ a, wf.next os = .inl a → Needs (· ≠ some .active) a w) ∧
      ∀ b, wf.next (os ++ [o]) = .inl b → Needs (· ≠ some .active) b w) where
  begins := by
    intro wf w w' backed begun
    refine ⟨?_,fun a now => needs_begin begun (Classical.em _) now⟩
    cases begun
    exact backed
  performs := by
    rintro s r o w' a meets runs ⟨backed,needs⟩ now has
    have mine := needs a now
    refine ⟨backed_effect backed mine has,?_,?_⟩
    · intro b now'
      cases now.symm.trans now'
      exact needs_again mine has
    · intro b later
      exact needs_next nofun ((ordered_next r.program r.journal a o now).1 b later) (careful_put meets runs now) mine has
  forgets := fun _ _ _ _ held => ⟨held.1,held.2.1⟩
  records := fun _ _ _ _ held => ⟨held.1,held.2.2⟩
  finishes := fun _ _ _ _ held _ => held.1
  elsewhere := by
    intro s w' meets changes
    have honest := careful_client meets
    refine ⟨fun _ backed => backed_client backed changes,?_⟩
    rintro r _
    refine ⟨fun _ held => ⟨backed_client held.1 changes,fun a now => needs_client (held.2 a now) changes honest⟩,?_⟩
    rintro o _ ⟨backed,again,later⟩
    exact ⟨backed_client backed changes,fun a now => needs_client (again a now) changes honest,
      fun b then_ => needs_client (later b then_) changes honest⟩

/-! ### In sync when nothing runs -/

/-- The table and S3 agree on the file. -/
def Synced (w : Storage) : Prop := w.file ≠ some .pending ∧ (w.file = some .active ↔ w.object = true)

/-- The steps that may throw: what they leave is cleaned up. -/
def Action.cleaned : Action → Bool
  | .putS3Contents | .recv | .validateS3Upload | .fileActivated => true
  | _ => false

/-- A presigned post is being made, published or waited for. -/
def Action.awaits : Action → Bool
  | .createPresignedPost | .setEvent | .recv => true
  | _ => false

/-- Only steps that are cleaned up throw, and clients upload only while a workflow waits for them. -/
def tolerable (s : Journaling.State Workflow Outcome Storage) : Journaling.Event Workflow Outcome Storage → Bool
  | .perform .threw _ => nextIs Action.cleaned s
  | .outside w' => w'.object = s.world.object || nextIs Action.awaits s
  | _ => true

/-- The outcome is one that a step may have. -/
def Allowed (a : Action) (o : Outcome) : Prop := o = .threw → a.cleaned = true

theorem synced_last {a : Action} {o : Outcome} {w w' : Storage} (last : Last a o) (allowed : Allowed a o)
    (needs : Needs (· = none) a w) (has : effect a w o w' = true) : Synced w' := by
  cases last with
  | deleted o =>
    cases o with
    | returned truthy =>
      simp only [effect,decide_eq_true_eq] at has
      subst has
      have absent : w.file = none := needs
      simp [Synced,absent]
    | threw => exact absurd (allowed rfl) nofun
  | created o =>
    cases o with
    | returned truthy =>
      simp only [effect,decide_eq_true_eq] at has
      subst has
      have there : w.object = true := needs
      simp [Synced,there]
    | threw => exact absurd (allowed rfl) nofun
  | activated truthy =>
    simp only [effect,decide_eq_true_eq] at has
    subst has
    have there : w.object = true := needs
    simp [Synced,there]
  | fileDeleted | newPendingFile | createPresignedPost | setEvent => exact absurd (allowed rfl) nofun

/-- A step that makes, publishes or waits for a post is not the last one. -/
theorem awaits_not_last {a : Action} {o : Outcome} (awaits : a.awaits = true) (allowed : Allowed a o) : ¬ Last a o := by
  intro last
  cases last with
  | createPresignedPost | setEvent => exact absurd (allowed rfl) nofun
  | deleted | created | activated | fileDeleted | newPendingFile => cases awaits

theorem synced_client {w w' : Storage} (synced : Synced w) (changes : client w w' = true) (same : w'.object = w.object) : Synced w' := by
  simp only [client,decide_eq_true_eq] at changes
  rcases changes with ⟨_,rfl⟩ | rfl
  · obtain ⟨file,object,posted,finished⟩ := w
    cases same
    exact synced
  · exact synced

theorem nextIs_running {condition : Action → Bool} {s : Journaling.State Workflow Outcome Storage}
    {r : Journaling.Running Workflow Outcome} (runs : s.running = some r) (is_ : nextIs condition s = true) :
    ∃ a, r.program.next r.journal = .inl a ∧ condition a = true := by
  simp only [nextIs,runs,Option.any_some] at is_
  cases now : r.program.next r.journal with
  | inl a =>
    rw [now] at is_
    exact ⟨a,rfl,is_⟩
  | inr result =>
    rw [now] at is_
    cases is_

theorem synced_keeps : system.Keeps (fun s e => careful s e = true ∧ tolerable s e = true) Synced
    (fun wf os w => (∀ a, wf.next os = .inl a → Needs (· = none) a w) ∧ ∀ r, wf.next os = .inr r → Synced w)
    (fun wf os o w => (∀ a, wf.next os = .inl a → Needs (· = none) a w ∧ Allowed a o) ∧ (∃ a, wf.next os = .inl a) ∧
      (∀ b, wf.next (os ++ [o]) = .inl b → Needs (· = none) b w) ∧ ∀ r, wf.next (os ++ [o]) = .inr r → Synced w) where
  begins := by
    intro wf w w' synced begun
    refine ⟨fun a now => needs_begin begun ?_ now,?_⟩
    · cases file : w.file with
      | none => exact .inr rfl
      | some status =>
        cases status with
        | pending => exact absurd file synced.1
        | active => exact .inl rfl
    · intro r ends
      cases wf <;> cases ends
  performs := by
    rintro s r o w' a meets runs ⟨needs,_⟩ now has
    have mine := needs a now
    have allowed : Allowed a o := by
      rintro rfl
      obtain ⟨b,now',cleaned⟩ := nextIs_running runs meets.2
      cases now.symm.trans now'
      exact cleaned
    have order := ordered_next r.program r.journal a o now
    refine ⟨?_,⟨a,now⟩,fun b later => needs_next rfl (order.1 b later) (careful_put meets.1 runs now) mine has,
      fun result ends => synced_last (order.2 result ends) allowed mine has⟩
    intro b now'
    cases now.symm.trans now'
    exact ⟨needs_again mine has,allowed⟩
  forgets := by
    rintro wf os o w ⟨again,⟨a,now⟩,_⟩
    refine ⟨fun b now' => (again b now').1,?_⟩
    intro r ends
    cases now.symm.trans ends
  records := fun _ _ _ _ held => held.2.2
  finishes := fun _ _ _ r held ends => held.2 r ends
  elsewhere := by
    intro s w' ⟨care,meets⟩ changes
    have honest := careful_client care
    simp only [tolerable,Bool.or_eq_true,decide_eq_true_eq] at meets
    refine ⟨?_,?_⟩
    · intro rests synced
      rcases meets with same | awaits
      · exact synced_client synced changes same
      · simp [nextIs,rests] at awaits
    · intro r runs
      refine ⟨?_,?_⟩
      · rintro _ ⟨needs,ends⟩
        refine ⟨fun a now => needs_client (needs a now) changes honest,?_⟩
        intro result ended
        rcases meets with same | awaits
        · exact synced_client (ends result ended) changes same
        · obtain ⟨a,now,_⟩ := nextIs_running runs awaits
          cases now.symm.trans ended
      · rintro o _ ⟨again,⟨a,now⟩,later,ends⟩
        refine ⟨fun b now' => ⟨needs_client (again b now').1 changes honest,(again b now').2⟩,⟨a,now⟩,
          fun b then_ => needs_client (later b then_) changes honest,?_⟩
        intro result ended
        rcases meets with same | awaits
        · exact synced_client (ends result ended) changes same
        · -- A step that waits for clients is not the last one.
          obtain ⟨b,now',waits⟩ := nextIs_running runs awaits
          cases now.symm.trans now'
          exact absurd ((ordered_next r.program r.journal a o now).2 result ended) (awaits_not_last waits (again a now).2)

/-- Whenever a process crashes and wherever its workflows are recovered: an active file has its contents in S3, unless an upload of an active
    file has failed to put them or a client has announced what it has not uploaded. And when no workflow runs, the table and S3 agree on the
    file, unless a step has thrown whose failure is not cleaned up, or a client has uploaded when no workflow waited for it. -/
theorem s3_in_sync {w : Storage} {events : List (Journaling.Event Workflow Outcome Storage)}
    {s : Journaling.State Workflow Outcome Storage} (begins : Synced w) (run : Runs system.step ⟨w,none⟩ events s)
    (care : Along system.step (fun s e => careful s e = true) ⟨w,none⟩ events) :
    (s.world.file = some .active → s.world.object = true) ∧
      (Along system.step (fun s e => tolerable s e = true) ⟨w,none⟩ events → s.running = none → Synced s.world) := by
  refine ⟨?_,?_⟩
  · have holds := backed_keeps.runs (show Backed w from begins.2.mp) care run
    unfold Journaling.Holds at holds
    split at holds
    · exact holds
    · split at holds
      · exact holds.1
      · exact holds.1
  · intro along rests
    have both : Along system.step (fun s e => careful s e = true ∧ tolerable s e = true) ⟨w,none⟩ events :=
      along_iff.mpr fun first e rest t split reached => ⟨along_iff.mp care first e rest t split reached,
        along_iff.mp along first e rest t split reached⟩
    have holds := synced_keeps.runs begins both run
    unfold Journaling.Holds at holds
    rw [rests] at holds
    exact holds

/-- A presigned upload that crashes before its activation is recorded, and then a delete whose first step is run twice. -/
def uploadsAndDeletes : List (Journaling.Event Workflow Outcome Storage) :=
  [.begin (.presignedUpload false),.perform (.returned true) { file := some .pending },.record,
    .perform (.returned true) { file := some .pending,posted := true },.record,
    .perform (.returned true) { file := some .pending,posted := true },.record,
    .outside { file := some .pending,object := true,posted := true },
    .outside { file := some .pending,object := true,posted := true,finished := true },
    .perform (.returned true) { file := some .pending,object := true,posted := true,finished := true },.record,
    .perform (.returned true) { file := some .active,object := true,posted := true,finished := true },.crash,
    .replay,.replay,.replay,.replay,.perform (.returned true) { file := some .active,object := true,posted := true,finished := true },.record,
    .finish,.begin .delete,.perform (.returned true) { object := true,posted := true },.crash,
    .perform (.returned true) { object := true,posted := true },.record,.perform (.returned true) { posted := true },.record,.finish]

theorem s3_in_sync_recovered : ∃ s, Runs system.step ⟨{},none⟩ uploadsAndDeletes s ∧ s.running.isNone = true ∧ Synced s.world := by
  obtain ⟨s,run,care,along,rests⟩ : ∃ s, Runs system.step ⟨{},none⟩ uploadsAndDeletes s ∧
      Along system.step (fun s e => careful s e = true) ⟨{},none⟩ uploadsAndDeletes ∧
      Along system.step (fun s e => tolerable s e = true) ⟨{},none⟩ uploadsAndDeletes ∧ s.running = none :=
    ⟨_,rfl,of_decide_eq_true rfl,of_decide_eq_true rfl,rfl⟩
  exact ⟨s,run,by rw [rests]; rfl,(s3_in_sync ⟨by decide,by decide⟩ run care).2 along rests⟩

/-- An upload of an active file that cannot be put: its contents are deleted, and the file stays active. -/
theorem upload_fails_active : ∃ s, Runs system.step ⟨{ file := some .active,object := true },none⟩
    [.begin .upload,.perform .threw { file := some .active,object := true },.record,
      .perform (.returned true) { file := some .active },.record,.finish] s ∧
    s.running.isNone = true ∧ s.world.file = some .active ∧ s.world.object = false := ⟨_,rfl,rfl,rfl,rfl⟩

/-- A presigned upload whose post cannot be created leaves the file pending for good: this step is not in the `try`. -/
theorem post_fails_pending : ∃ s, Runs system.step ⟨{},none⟩
    [.begin (.presignedUpload true),.perform (.returned true) { file := some .pending },.record,
      .perform .threw { file := some .pending },.record,.finish] s ∧ s.running.isNone = true ∧ s.world.file = some .pending :=
  ⟨_,rfl,rfl,rfl⟩

end Dbos.S3Workflows
