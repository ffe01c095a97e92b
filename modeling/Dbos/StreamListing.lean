import Mathlib.Data.List.Infix
import Dbos.Pg.Select
import Dbos.StreamReader

/-!
`getAllStreamEntries` of `src/system_database.ts`, which lists all streams of a workflow, beside the generator that reads one of them.
The generator stops at the text of a sentinel; the listing passes over values that are the sentinel's text once they are decoded, and
goes on behind a sentinel. It collects the values in a JavaScript object, which has properties of its own accord.
-/
namespace Dbos.StreamListing
open Dbos.Pg Dbos.Schema Dbos.Communication Dbos.StreamReader Dbos.Serialization

/-! ### Listings -/

/-- JavaScript's strings among the values. -/
structure Strings (Value : Type) where
  ofText : String → Value
  text : Value → Option String
  text_ofText : ∀ t,text (ofText t) = some t

/-- The properties of `Object.prototype`, which are no arrays and none of them falsy. -/
def objectPrototype : List String :=
  ["constructor","__defineGetter__","__defineSetter__","hasOwnProperty","__lookupGetter__","__lookupSetter__","isPrototypeOf",
    "propertyIsEnumerable","toString","valueOf","__proto__","toLocaleString"]

inductive Property (Value : Type)
  | undefined
  | inherited
  | own (values : List Value)

section
variable {Value : Type}

def lookup (streams : Table String (List Value)) (key : String) : Property Value :=
  match streams.get? key with
  | some values => .own values
  | none => if key ∈ objectPrototype then .inherited else .undefined

variable (formats : Formats Value) (strings : Strings Value) (serializer : DBOSSerializer Value)

/-- What the listing shows of an entry. -/
def shown (entry : StreamEntry) : Option Value :=
  let value := safeParse formats strings.ofText serializer entry.value entry.serialization
  if strings.text value = some DBOS_STREAM_CLOSED_SENTINEL then none else some value

/-- One row: an array is made for a name without a property, and the value is pushed to what is there. -/
def pushRow (streams : Table String (List Value)) (row : (String × String × Nat) × StreamEntry) :
    Except (Thrown Value) (Table String (List Value)) :=
  match shown formats strings serializer row.2 with
  | none => .ok streams
  | some value =>
    match lookup streams row.1.2.1 with
    | .undefined => .ok (streams.insert row.1.2.1 [value])
    | .own _ => .ok (streams.update (fun key _ => key = row.1.2.1) fun _ values => values ++ [value])
    | .inherited => .error (.typeError "streams[row.key].push is not a function")

/-- The loop over the rows of the SELECT. -/
def getAllStreamEntries (rows : List ((String × String × Nat) × StreamEntry)) : Except (Thrown Value) (Table String (List Value)) :=
  rows.foldlM (pushRow formats strings serializer) Table.empty

end

/-- ORDER BY key, "offset", in the order that the database has for texts. -/
def ahead (keyBefore : String → String → Bool) (a b : (String × String × Nat) × StreamEntry) : Bool :=
  keyBefore a.1.2.1 b.1.2.1 || (a.1.2.1 = b.1.2.1 && a.1.2.2 < b.1.2.2)

/-- The rows of the SELECT. -/
def selected (streams : Streams) (workflowID : String) : List ((String × String × Nat) × StreamEntry) :=
  streams.select fun k _ => k.1 = workflowID

/-! ### The rows of one stream -/

section
variable {streams : Streams} {workflowID key : String} {rows : List ((String × String × Nat) × StreamEntry)}
variable {keyBefore : String → String → Bool}

/-- The entries of a stream by offset. -/
def entriesOf (workflowID key : String) (streams : Streams) : List StreamEntry :=
  (List.range (nextOffset streams workflowID key)).filterMap (logOf workflowID key streams)

/-- The offsets of the workflow's streams are consecutive. -/
def Consecutive (workflowID : String) (streams : Streams) : Prop :=
  ∀ key,∃ n,∀ o,(streams.get? (workflowID,key,o)).isSome ↔ o < n

/-- The rows of a stream, by offset. -/
def rowsOf (workflowID key : String) (streams : Streams) : List ((String × String × Nat) × StreamEntry) :=
  (List.range (nextOffset streams workflowID key)).filterMap fun o => (logOf workflowID key streams o).map ((workflowID,key,o),·)

theorem mem_rowsOf {row : (String × String × Nat) × StreamEntry} :
    row ∈ rowsOf workflowID key streams ↔ streams.get? row.1 = some row.2 ∧ row.1.1 = workflowID ∧ row.1.2.1 = key := by
  obtain ⟨⟨w,k,o⟩,entry⟩ := row
  simp only [rowsOf,List.mem_filterMap,List.mem_range,Option.map_eq_some_iff,logOf,Prod.mk.injEq]
  constructor
  · rintro ⟨o,_,entry,there,⟨rfl,rfl,rfl⟩,rfl⟩
    exact ⟨there,rfl,rfl⟩
  · rintro ⟨there,rfl,rfl⟩
    have present : (streams.get? (w,k,o)).isSome := by rw [there]; rfl
    exact ⟨o,(StreamDensity.nextOffset_spec streams w k).1 o present,entry,there,⟨rfl,rfl,rfl⟩,rfl⟩

theorem rowsOf_ordered (workflowID key : String) (streams : Streams) :
    (rowsOf workflowID key streams).Pairwise fun a b => a.1.2.2 < b.1.2.2 := by
  refine List.Pairwise.filterMap _ ?_ List.pairwise_lt_range
  intro o o' before row there row' there'
  obtain ⟨entry,_,rfl⟩ := Option.map_eq_some_iff.mp there
  obtain ⟨entry',_,rfl⟩ := Option.map_eq_some_iff.mp there'
  exact before

/-- An answer of the SELECT has the rows of each stream by offset. -/
theorem answer_rowsOf (answer : Answer (ahead keyBefore) (selected streams workflowID) none rows) (key : String) :
    rows.filter (fun row => row.1.2.1 = key) = rowsOf workflowID key streams := by
  have all : ∀ row,row ∈ rows ↔ streams.get? row.1 = some row.2 ∧ row.1.1 = workflowID := by
    intro row
    rw [answer_all answer,Table.get?_eq_some]
    simp [selected,Table.select]
  obtain ⟨distinct,_,sorted,_⟩ := answer
  have members : ∀ row,row ∈ rows.filter (fun row => row.1.2.1 = key) ↔ row ∈ rowsOf workflowID key streams := by
    intro row
    rw [List.mem_filter,all,mem_rowsOf,decide_eq_true_eq,and_assoc]
  have ordered : (rows.filter fun row => row.1.2.1 = key).Pairwise fun a b => a.1.2.2 < b.1.2.2 := by
    refine List.Pairwise.imp_of_mem ?_ ((sorted.and distinct).filter _)
    rintro ⟨⟨w,k,o⟩,entry⟩ ⟨⟨w',k',o'⟩,entry'⟩ here there ⟨behind,different⟩
    obtain ⟨found,rfl,rfl⟩ := mem_rowsOf.mp ((members _).mp here)
    obtain ⟨found',same,same'⟩ := mem_rowsOf.mp ((members _).mp there)
    dsimp only at found found' same same' ⊢
    subst same same'
    simp only [ahead,decide_true,Bool.true_and,Bool.or_eq_false_iff,decide_eq_false_iff_not] at behind
    rcases Nat.lt_trichotomy o o' with less | rfl | more
    · exact less
    · rw [found] at found'
      cases found'
      exact absurd rfl different
    · exact absurd more behind.2
  have nodup : (rowsOf workflowID key streams).Nodup := (rowsOf_ordered workflowID key streams).imp fun before same => by
    rw [same] at before
    exact Nat.lt_irrefl _ before
  refine List.Perm.eq_of_pairwise ?_ ordered (rowsOf_ordered workflowID key streams)
    ((List.perm_ext_iff_of_nodup (distinct.filter _) nodup).mpr members)
  intro a b _ _ before after
  exact absurd before (Nat.lt_asymm after)

theorem entriesOf_rows (workflowID key : String) (streams : Streams) :
    (rowsOf workflowID key streams).map Prod.snd = entriesOf workflowID key streams := by
  rw [rowsOf,List.map_filterMap,entriesOf]
  congr 1
  funext o
  cases logOf workflowID key streams o <;> rfl

/-- The entry at an index is the one at that offset. -/
theorem entriesOf_getElem? (dense : Consecutive workflowID streams) (key : String) (o : Nat) :
    (entriesOf workflowID key streams)[o]? = logOf workflowID key streams o := by
  obtain ⟨n,count⟩ := dense key
  have here : ∀ m ≤ n,((List.range m).filterMap (logOf workflowID key streams)).length = m ∧
      ∀ o < m,((List.range m).filterMap (logOf workflowID key streams))[o]? = logOf workflowID key streams o := by
    intro m
    induction m with
    | zero => simp
    | succ m ih =>
      intro within
      obtain ⟨length,before⟩ := ih (by omega)
      obtain ⟨entry,there⟩ := Option.isSome_iff_exists.mp ((count m).mpr within)
      have last : logOf workflowID key streams m = some entry := there
      rw [List.range_succ,List.filterMap_append,List.filterMap_cons_some last,List.filterMap_nil]
      refine ⟨by simp [length],?_⟩
      intro o small
      rcases Nat.lt_succ_iff_lt_or_eq.mp small with lower | rfl
      · rw [List.getElem?_append_left (by omega)]
        exact before o lower
      · rw [List.getElem?_append_right (by omega),length,Nat.sub_self,last]
        rfl
  rw [entriesOf,StreamDensity.nextOffset_eq count]
  obtain ⟨length,inside⟩ := here n (Nat.le_refl n)
  rcases Nat.lt_or_ge o n with lower | beyond
  · exact inside o lower
  · have missing : logOf workflowID key streams o = none := by
      have absent := (count o).not.mpr (by omega)
      simpa [logOf] using absent
    rw [missing,List.getElem?_eq_none (by omega)]

/-- What a generator reads is the start of the stream. -/
theorem readable_front (dense : Consecutive workflowID streams) (key : String) :
    readable workflowID key streams <+: entriesOf workflowID key streams := by
  rw [List.prefix_iff_getElem?]
  intro i within
  rw [entriesOf_getElem? dense]
  exact ((readable_whole workflowID key streams).front i _ (List.getElem?_eq_getElem within)).1

end

/-! ### What is listed -/

section
variable {Value : Type} {formats : Formats Value} {strings : Strings Value} {serializer : DBOSSerializer Value}
variable {workflowID key : String} {rows : List ((String × String × Nat) × StreamEntry)} {acc streams : Table String (List Value)}

/-- The values of one stream that the rows show. -/
def shownOf (formats : Formats Value) (strings : Strings Value) (serializer : DBOSSerializer Value) (key : String)
    (rows : List ((String × String × Nat) × StreamEntry)) : List Value :=
  (rows.filter fun row => row.1.2.1 = key).filterMap fun row => shown formats strings serializer row.2

/-- An array with more values behind; there is none without values. -/
def joined (before : Option (List Value)) (more : List Value) : Option (List Value) :=
  if more = [] then before else some (before.getD [] ++ more)

theorem joined_joined (before : Option (List Value)) (l m : List Value) : joined (joined before l) m = joined before (l ++ m) := by
  by_cases first : l = []
  · simp [joined,first]
  · by_cases second : m = []
    · simp [joined,first,second]
    · simp [joined,first,second]

/-- No array stands under an inherited name. -/
def Untouched (acc : Table String (List Value)) : Prop := ∀ name ∈ objectPrototype,acc.get? name = none

variable (formats strings serializer) in
theorem pushRow_spec (row : (String × String × Nat) × StreamEntry) (untouched : Untouched acc) :
    (row.1.2.1 ∈ objectPrototype ∧ (shown formats strings serializer row.2).isSome ∧
      ∃ e,pushRow formats strings serializer acc row = .error e) ∨
    ¬ (row.1.2.1 ∈ objectPrototype ∧ (shown formats strings serializer row.2).isSome) ∧
      ∃ next,pushRow formats strings serializer acc row = .ok next ∧ Untouched next ∧
        ∀ key,next.get? key = joined (acc.get? key) (shownOf formats strings serializer key [row]) := by
  cases shows : shown formats strings serializer row.2 with
  | none =>
    refine .inr ⟨by simp,acc,by simp [pushRow,shows],untouched,?_⟩
    intro key
    by_cases here : row.1.2.1 = key <;> simp [shownOf,here,shows,joined]
  | some value =>
    by_cases inherits : row.1.2.1 ∈ objectPrototype
    · have turn : pushRow formats strings serializer acc row = .error (.typeError "streams[row.key].push is not a function") := by
        simp only [pushRow,shows,lookup,untouched _ inherits,if_pos inherits]
      exact .inl ⟨inherits,rfl,_,turn⟩
    · refine .inr ⟨by simp [inherits],?_⟩
      cases there : acc.get? row.1.2.1 with
      | none =>
        have turn : pushRow formats strings serializer acc row = .ok (acc.insert row.1.2.1 [value]) := by
          simp only [pushRow,shows,lookup,there,if_neg inherits]
        refine ⟨_,turn,?_,?_⟩
        · intro name listed
          have other : name ≠ row.1.2.1 := fun same => inherits (same ▸ listed)
          rw [Table.get?_insert,if_neg other]
          exact untouched name listed
        · intro key
          by_cases here : key = row.1.2.1
          · subst here
            simp [shownOf,shows,joined,there]
          · simp [shownOf,joined,here,Ne.symm here]
      | some values =>
        have turn : pushRow formats strings serializer acc row =
            .ok (acc.update (fun key _ => key = row.1.2.1) fun _ values => values ++ [value]) := by
          simp only [pushRow,shows,lookup,there]
        refine ⟨_,turn,?_,?_⟩
        · intro name listed
          rw [Table.get?_update,untouched name listed]
          rfl
        · intro key
          by_cases here : key = row.1.2.1
          · subst here
            simp [shownOf,shows,joined,there]
          · cases found : acc.get? key <;> simp [shownOf,joined,here,Ne.symm here,found]

variable (formats strings serializer rows) in
theorem pushRows_spec (untouched : Untouched acc) :
    ((∃ row ∈ rows,row.1.2.1 ∈ objectPrototype ∧ (shown formats strings serializer row.2).isSome) ∧
      ∃ e,rows.foldlM (pushRow formats strings serializer) acc = .error e) ∨
    (¬ ∃ row ∈ rows,row.1.2.1 ∈ objectPrototype ∧ (shown formats strings serializer row.2).isSome) ∧
      ∃ streams,rows.foldlM (pushRow formats strings serializer) acc = .ok streams ∧
        Untouched streams ∧ ∀ key,streams.get? key = joined (acc.get? key) (shownOf formats strings serializer key rows) := by
  induction rows generalizing acc with
  | nil => exact .inr ⟨by simp,acc,rfl,untouched,fun key => by simp [shownOf,joined]⟩
  | cons row rest ih =>
    rw [List.foldlM_cons]
    rcases pushRow_spec formats strings serializer row untouched with ⟨inherits,shows,e,thrown⟩ | ⟨fine,next,pushed,untouched',first⟩
    · exact .inl ⟨⟨row,List.mem_cons_self,inherits,shows⟩,e,by rw [thrown]; rfl⟩
    · rw [pushed]
      rcases ih untouched' with ⟨⟨row',listed,bad⟩,e,thrown⟩ | ⟨others,streams,done,last,later⟩
      · exact .inl ⟨⟨row',List.mem_cons_of_mem _ listed,bad⟩,e,thrown⟩
      · refine .inr ⟨?_,streams,done,last,?_⟩
        · rintro ⟨row',listed,bad⟩
          rcases List.mem_cons.mp listed with rfl | old
          · exact fine bad
          · exact others ⟨row',old,bad⟩
        · intro key
          rw [later,first,joined_joined]
          congr 1
          rw [shownOf,shownOf,shownOf,← List.filterMap_append,← List.filter_append]
          rfl

/-- What is decoded is shown, unless it is the text of the sentinel; another text is shown as it is. -/
theorem shown_cases (formats : Formats Value) (strings : Strings Value) (serializer : DBOSSerializer Value) {entry : StreamEntry}
    (goes : closes entry = false) :
    (∃ v,decode formats serializer entry = .ok v ∧ strings.text v ≠ some DBOS_STREAM_CLOSED_SENTINEL ∧
      shown formats strings serializer entry = some v) ∨
    (∃ v,decode formats serializer entry = .ok v ∧ strings.text v = some DBOS_STREAM_CLOSED_SENTINEL ∧
      shown formats strings serializer entry = none) ∨
    ∃ e,decode formats serializer entry = .error e ∧ shown formats strings serializer entry = some (strings.ofText entry.value) := by
  cases decoded : decode formats serializer entry with
  | ok v =>
    have parsed : safeParse formats strings.ofText serializer entry.value entry.serialization = v := by
      rw [safeParse,show deserializeValue formats (some entry.value) entry.serialization serializer = .ok v from decoded]
    by_cases sentinel : strings.text v = some DBOS_STREAM_CLOSED_SENTINEL
    · exact .inr (.inl ⟨v,rfl,sentinel,by simp [shown,parsed,sentinel]⟩)
    · exact .inl ⟨v,rfl,sentinel,by simp [shown,parsed,sentinel]⟩
  | error e =>
    have parsed : safeParse formats strings.ofText serializer entry.value entry.serialization = strings.ofText entry.value := by
      rw [safeParse,show deserializeValue formats (some entry.value) entry.serialization serializer = .error e from decoded]
    have other : entry.value ≠ DBOS_STREAM_CLOSED_SENTINEL := by simpa [closes] using goes
    exact .inr (.inr ⟨e,rfl,by simp [shown,parsed,strings.text_ofText,other]⟩)

theorem shown_text {entry : StreamEntry} {v : Value} (shows : shown formats strings serializer entry = some v) :
    strings.text v ≠ some DBOS_STREAM_CLOSED_SENTINEL := by
  simp only [shown] at shows
  split at shows
  · cases shows
  · cases shows
    assumption

/-- What the rows of a stream show is what a generator gives. -/
theorem shown_eq_read {front : List StreamEntry} (goes : ∀ entry ∈ front,closes entry = false) (behind : List StreamEntry) :
    (front ++ behind).filterMap (shown formats strings serializer) = (decodeAll (decode formats serializer) front).1 ↔
      (∀ entry ∈ front,∃ v,decode formats serializer entry = .ok v ∧ strings.text v ≠ some DBOS_STREAM_CLOSED_SENTINEL) ∧
        ∀ entry ∈ behind,shown formats strings serializer entry = none := by
  induction front with
  | nil => simp [decodeAll]
  | cons entry front ih =>
    have rest := ih fun other listed => goes other (List.mem_cons_of_mem _ listed)
    rw [List.cons_append]
    rcases shown_cases formats strings serializer (goes entry List.mem_cons_self) with
      ⟨v,decoded,plain,shows⟩ | ⟨v,decoded,sentinel,hidden⟩ | ⟨e,failed,shows⟩
    · rw [List.filterMap_cons_some shows]
      simp only [decodeAll,decoded,List.cons.injEq,true_and,rest,List.forall_mem_cons,and_assoc]
      exact (and_iff_right ⟨v,rfl,plain⟩).symm
    · refine iff_of_false ?_ ?_
      · rw [List.filterMap_cons_none hidden]
        simp only [decodeAll,decoded]
        intro same
        -- the generator gives the sentinel's text as a value, and the listing shows it nowhere
        obtain ⟨other,_,shows⟩ := List.mem_filterMap.mp (show v ∈ (front ++ behind).filterMap _ by rw [same]; exact List.mem_cons_self)
        exact shown_text shows sentinel
      · rintro ⟨all,_⟩
        obtain ⟨v',decoded',plain⟩ := all entry List.mem_cons_self
        rw [decoded] at decoded'
        cases decoded'
        exact plain sentinel
    · refine iff_of_false ?_ ?_
      · rw [List.filterMap_cons_some shows]
        simp [decodeAll,failed]
      · rintro ⟨all,_⟩
        obtain ⟨v,decoded,_⟩ := all entry List.mem_cons_self
        rw [failed] at decoded
        cases decoded

/-- The listing and a generator agree on the stream. -/
structure Agrees (formats : Formats Value) (strings : Strings Value) (serializer : DBOSSerializer Value) (streams : Streams)
    (workflowID key : String) : Prop where
  plain : ∀ entry ∈ readable workflowID key streams,∃ v,decode formats serializer entry = .ok v ∧
    strings.text v ≠ some DBOS_STREAM_CLOSED_SENTINEL
  closed : ∀ entry ∈ (entriesOf workflowID key streams).drop (readable workflowID key streams).length,
    shown formats strings serializer entry = none
  named : key ∉ objectPrototype
  others : ∀ name ∈ objectPrototype,∀ entry ∈ entriesOf workflowID name streams,shown formats strings serializer entry = none

theorem shownOf_entries {streams : Streams} {keyBefore : String → String → Bool}
    (answer : Answer (ahead keyBefore) (selected streams workflowID) none rows) (key : String) :
    shownOf formats strings serializer key rows = (entriesOf workflowID key streams).filterMap (shown formats strings serializer) := by
  rw [shownOf,answer_rowsOf answer key,← entriesOf_rows,List.filterMap_map]
  rfl

/-- The rows that make the listing throw are those of a stream with an inherited name. -/
theorem inherits_iff {streams : Streams} {keyBefore : String → String → Bool}
    (answer : Answer (ahead keyBefore) (selected streams workflowID) none rows) :
    (∃ row ∈ rows,row.1.2.1 ∈ objectPrototype ∧ (shown formats strings serializer row.2).isSome) ↔
      ¬ ∀ name ∈ objectPrototype,∀ entry ∈ entriesOf workflowID name streams,shown formats strings serializer entry = none := by
  constructor
  · rintro ⟨row,listed,inherits,shows⟩ nothing
    have here : row ∈ rowsOf workflowID row.1.2.1 streams := by
      rw [← answer_rowsOf answer]
      exact List.mem_filter.mpr ⟨listed,by simp⟩
    have entry : row.2 ∈ entriesOf workflowID row.1.2.1 streams := by
      rw [← entriesOf_rows]
      exact List.mem_map_of_mem here
    rw [nothing _ inherits _ entry] at shows
    cases shows
  · intro something
    by_contra none_
    refine something fun name inherits entry listed => ?_
    by_contra shows
    rw [← entriesOf_rows,← answer_rowsOf answer] at listed
    obtain ⟨row,member,rfl⟩ := List.mem_map.mp listed
    obtain ⟨here,same⟩ := List.mem_filter.mp member
    refine none_ ⟨row,here,?_,Option.isSome_iff_ne_none.mpr shows⟩
    rw [of_decide_eq_true same]
    exact inherits

theorem lookup_own {l values : List Value} (there : streams.get? key = joined none l) :
    lookup streams key = .own values ↔ l ≠ [] ∧ l = values := by
  by_cases empty : l = []
  · by_cases inherits : key ∈ objectPrototype <;> simp [lookup,there,joined,empty,inherits]
  · simp [lookup,there,joined,empty]

theorem lookup_undefined {l : List Value} (there : streams.get? key = joined none l) :
    lookup streams key = .undefined ↔ l = [] ∧ key ∉ objectPrototype := by
  by_cases empty : l = []
  · by_cases inherits : key ∈ objectPrototype <;> simp [lookup,there,joined,empty,inherits]
  · simp [lookup,there,joined,empty]

variable (formats strings serializer) in
/-- The listing shows what a generator gives: it shows all that is readable, and nothing behind it. -/
theorem shown_same {streams : Streams} (dense : Consecutive workflowID streams) (key : String) :
    (entriesOf workflowID key streams).filterMap (shown formats strings serializer) =
        (decodeAll (decode formats serializer) (readable workflowID key streams)).1 ↔
      (∀ entry ∈ readable workflowID key streams,∃ v,decode formats serializer entry = .ok v ∧
          strings.text v ≠ some DBOS_STREAM_CLOSED_SENTINEL) ∧
        ∀ entry ∈ (entriesOf workflowID key streams).drop (readable workflowID key streams).length,
          shown formats strings serializer entry = none := by
  have goes : ∀ entry ∈ readable workflowID key streams,closes entry = false := by
    intro entry member
    obtain ⟨i,at_⟩ := List.getElem?_of_mem member
    exact ((readable_whole workflowID key streams).front i entry at_).2
  rw [← shown_eq_read goes,← List.prefix_append_drop (readable_front dense key)]

/-- Texts that can be decoded are as many values. -/
theorem decoded_nil_iff {entries : List StreamEntry} (plain : ∀ entry ∈ entries,∃ v,decode formats serializer entry = .ok v) :
    (decodeAll (decode formats serializer) entries).1 = [] ↔ entries = [] := by
  cases entries with
  | nil => simp [decodeAll]
  | cons entry rest =>
    obtain ⟨v,decoded⟩ := plain entry List.mem_cons_self
    simp [decodeAll,decoded]

/-- For every workflow that has ended, and whose offsets are consecutive, the listing has the values that a generator gives just where the
    two agree. A stream without values is not in the listing, which is no array then. -/
theorem listing_reads_iff (formats : Formats Value) (strings : Strings Value) (serializer : DBOSSerializer Value) {db : Database}
    {workflowID : String} {row : WorkflowStatus} (found : db.statuses.get? workflowID = some row)
    (ended : isWorkflowActive row.status = false) (dense : Consecutive workflowID db.streams) {keyBefore : String → String → Bool}
    {rows : List ((String × String × Nat) × StreamEntry)}
    (answer : Answer (ahead keyBefore) (selected db.streams workflowID) none rows) (key : String) :
    ∃ values e,
      (∀ n,3 * (readable workflowID key db.streams).length + 4 ≤ n →
        ((DBOS.readStream formats serializer workflowID key db)^[n] {}).outcome = some (values,e)) ∧
      ((∃ streams,getAllStreamEntries formats strings serializer rows = .ok streams ∧ lookup streams key = .own values) ↔
        Agrees formats strings serializer db.streams workflowID key ∧ readable workflowID key db.streams ≠ []) ∧
      ((∃ streams,getAllStreamEntries formats strings serializer rows = .ok streams ∧
          (lookup streams key = .own values ∨ lookup streams key = .undefined ∧ values = [])) ↔
        Agrees formats strings serializer db.streams workflowID key) := by
  refine ⟨_,_,fun n turns => alone_delivers found ended turns,?_⟩
  generalize sequence : (decodeAll (decode formats serializer) (readable workflowID key db.streams)).1 = values
  have none_ : Untouched (Table.empty : Table String (List Value)) := fun _ _ => rfl
  rcases pushRows_spec formats strings serializer rows none_ with ⟨bad,e,thrown⟩ | ⟨fine,streams,done,_,listed⟩
  · have disagrees : ¬ Agrees formats strings serializer db.streams workflowID key :=
      fun agrees => (inherits_iff answer).mp bad agrees.others
    have nothing : ∀ streams,getAllStreamEntries formats strings serializer rows ≠ .ok streams := by
      intro streams done
      rw [getAllStreamEntries,thrown] at done
      cases done
    exact ⟨by simp [disagrees,nothing],by simp [disagrees,nothing]⟩
  · have others := not_not.mp ((inherits_iff answer).not.mp fine)
    have there := listed key
    rw [shownOf_entries answer] at there
    generalize shows : (entriesOf workflowID key db.streams).filterMap (shown formats strings serializer) = l at there
    have same := shown_same formats strings serializer dense key
    rw [shows,sequence] at same
    have found_ : getAllStreamEntries formats strings serializer rows = .ok streams := done
    have only : ∀ P : Table String (List Value) → Prop,
        (∃ streams,getAllStreamEntries formats strings serializer rows = .ok streams ∧ P streams) ↔ P streams := by
      intro P
      rw [found_]
      constructor
      · rintro ⟨streams',same,holds⟩
        cases same
        exact holds
      · exact fun holds => ⟨streams,rfl,holds⟩
    rw [only,only,lookup_own there,lookup_undefined there]
    have inherited : key ∈ objectPrototype → l = [] := by
      intro inherits
      rw [← shows,List.filterMap_eq_nil_iff]
      exact others key inherits
    have agrees : Agrees formats strings serializer db.streams workflowID key ↔ l = values ∧ key ∉ objectPrototype := by
      rw [same]
      exact ⟨fun agrees => ⟨⟨agrees.plain,agrees.closed⟩,agrees.named⟩,fun ⟨⟨plain,closed⟩,named⟩ => ⟨plain,closed,named,others⟩⟩
    have empty : l = values → (values = [] ↔ readable workflowID key db.streams = []) := by
      intro equal
      rw [← sequence]
      refine decoded_nil_iff fun entry member => ?_
      obtain ⟨v,decoded,_⟩ := (same.mp equal).1 entry member
      exact ⟨v,decoded⟩
    rw [agrees]
    refine ⟨?_,?_⟩
    · constructor
      · rintro ⟨something,equal⟩
        refine ⟨⟨equal,fun inherits => something (inherited inherits)⟩,?_⟩
        rw [Ne,← empty equal,← equal]
        exact something
      · rintro ⟨⟨equal,_⟩,something⟩
        rw [Ne,← empty equal,← equal] at something
        exact ⟨something,equal⟩
    · constructor
      · rintro (⟨something,equal⟩ | ⟨⟨nothing,named⟩,none_⟩)
        · exact ⟨equal,fun inherits => something (inherited inherits)⟩
        · exact ⟨nothing.trans none_.symm,named⟩
      · rintro ⟨equal,named⟩
        by_cases something : l = []
        · exact .inr ⟨⟨something,named⟩,equal ▸ something⟩
        · exact .inl ⟨something,equal⟩

end

def sampleStrings : Strings Sample where
  ofText := .string
  text
    | .string t => some t
    | _ => none
  text_ofText _ := rfl

/-- `w` has ended, with one value in its stream `k`. -/
def endedWith (serializedValue : String) : Database where
  statuses := Table.empty.insert "w" { status := .SUCCESS,name := "f",created_at := 1,updated_at := 2 }
  streams := Table.empty.insert ("w","k",0) ⟨serializedValue,0,some "portable_json"⟩

theorem endedWith_consecutive (serializedValue : String) : Consecutive "w" (endedWith serializedValue).streams := by
  intro key
  by_cases here : key = "k"
  · refine ⟨1,fun o => ?_⟩
    by_cases first : o = 0 <;> simp [endedWith,here,first]
  · exact ⟨0,fun o => by simp [endedWith,here]⟩

theorem endedWith_answer (serializedValue : String) :
    Answer (ahead fun a b => a < b) (selected (endedWith serializedValue).streams "w") none
      [(("w","k",0),⟨serializedValue,0,some "portable_json"⟩)] := by
  have all : selected (endedWith serializedValue).streams "w" = [(("w","k",0),⟨serializedValue,0,some "portable_json"⟩)] := rfl
  rw [all]
  exact ⟨by simp,fun _ => id,by simp,nofun,fun _ listed missing => absurd listed missing⟩

theorem listing_reads_letter :
    ∃ values e,
      ((DBOS.readStream sampleFormats superjson "w" "k" (endedWith "\"a\""))^[7] {}).outcome = some (values,e) ∧
      ∃ streams,getAllStreamEntries sampleFormats sampleStrings superjson [(("w","k",0),⟨"\"a\"",0,some "portable_json"⟩)] = .ok streams ∧
        lookup streams "k" = .own values := by
  have found : (endedWith "\"a\"").statuses.get? "w" = some { status := .SUCCESS,name := "f",created_at := 1,updated_at := 2 } := rfl
  obtain ⟨values,e,given,strict,_⟩ := listing_reads_iff sampleFormats sampleStrings superjson found rfl
    (endedWith_consecutive "\"a\"") (endedWith_answer "\"a\"") "k"
  have all : readable "w" "k" (endedWith "\"a\"").streams = [⟨"\"a\"",0,some "portable_json"⟩] := by decide
  have entries : ∀ name,entriesOf "w" name (endedWith "\"a\"").streams = if name = "k" then [⟨"\"a\"",0,some "portable_json"⟩] else [] := by
    intro name
    by_cases here : name = "k"
    · subst here
      decide
    · rw [if_neg here,entriesOf,List.filterMap_eq_nil_iff]
      intro o _
      simp [logOf,endedWith,here]
  rw [all] at given strict
  refine ⟨values,e,given 7 (by decide),strict.mpr ⟨⟨?_,?_,by decide,?_⟩,by simp⟩⟩
  · intro entry listed
    cases List.mem_singleton.mp listed
    exact ⟨.string "a",rfl,by decide⟩
  · rw [entries]
    simp [all]
  · intro name inherits entry listed
    have other : name ≠ "k" := by
      rintro rfl
      revert inherits
      decide
    rw [entries,if_neg other] at listed
    cases listed

/-- A value that is the sentinel's text is given by the generator and left out of the listing. -/
theorem listing_drops_sentinel :
    ((DBOS.readStream sampleFormats superjson "w" "k" (endedWith "\"__DBOS_STREAM_CLOSED__\""))^[7] {}).outcome =
        some ([.string DBOS_STREAM_CLOSED_SENTINEL],none) ∧
      getAllStreamEntries sampleFormats sampleStrings superjson
        [(("w","k",0),⟨"\"__DBOS_STREAM_CLOSED__\"",0,some "portable_json"⟩)] = .ok Table.empty ∧
      ¬ ∀ (db : Database) (workflowID key : String) (row : WorkflowStatus) (rows : List ((String × String × Nat) × StreamEntry)),
        db.statuses.get? workflowID = some row → isWorkflowActive row.status = false → Consecutive workflowID db.streams →
        Answer (ahead fun a b => a < b) (selected db.streams workflowID) none rows →
        ∀ n values,((DBOS.readStream sampleFormats superjson workflowID key db)^[n] {}).outcome = some (values,none) →
        ∃ streams,getAllStreamEntries sampleFormats sampleStrings superjson rows = .ok streams ∧
          (lookup streams key = .own values ∨ lookup streams key = .undefined ∧ values = []) := by
  have given : ((DBOS.readStream sampleFormats superjson "w" "k" (endedWith "\"__DBOS_STREAM_CLOSED__\""))^[7] {}).outcome =
      some ([.string DBOS_STREAM_CLOSED_SENTINEL],none) := rfl
  have listed : getAllStreamEntries sampleFormats sampleStrings superjson
      [(("w","k",0),⟨"\"__DBOS_STREAM_CLOSED__\"",0,some "portable_json"⟩)] = .ok Table.empty := rfl
  refine ⟨given,listed,?_⟩
  intro always
  obtain ⟨streams,done,same⟩ := always (endedWith _) "w" "k" _ _ rfl rfl (endedWith_consecutive _) (endedWith_answer _) 7 _ given
  rw [listed] at done
  cases done
  rcases same with own | ⟨_,none_⟩
  · cases own
  · cases none_

end Dbos.StreamListing
