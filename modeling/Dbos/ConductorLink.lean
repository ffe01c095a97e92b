import Dbos.Pg.Run

/-!
The connection to the conductor: `resetWebsocket`, `setPingInterval`, `dispatchLoop` and `stop` of `src/conductor/conductor.ts`, with the
handlers of a socket. What runs between two turns of the event loop is one event; the timers fire and the sockets open, close and fail
when they will. A socket emits `close` after it has been terminated, and nothing says when.
-/
namespace Dbos.ConductorLink
open Dbos.Pg

/-! ### The conductor -/

inductive ReadyState
  | CONNECTING
  | OPEN
  | CLOSING
  | CLOSED
  deriving DecidableEq

/-- A socket with its `currPing`: whether the interval and the timeout of it are set. -/
structure Socket where
  readyState : ReadyState := .CONNECTING
  interval : Bool := true
  timeout : Bool := false
  deriving DecidableEq

def Socket.live (sock : Socket) : Bool := sock.readyState = .OPEN ∨ sock.readyState = .CONNECTING

/-- `websocket` and `pingIntervalTimeout` name sockets by their numbers. `reconnectTimeout` is `some true` while its timer runs, and
    `some false` when the timer has fired or was cleared and the field was not. -/
structure Conductor where
  websocket : Option Nat := none
  isShuttingDown : Bool := false
  isClosed : Bool := false
  pingIntervalTimeout : Option Nat := none
  reconnectTimeout : Option Bool := none
  sockets : List Socket := []
  deriving DecidableEq

/-- Something is done to the socket with the number. -/
def Conductor.touch (c : Conductor) (j : Nat) (f : Socket → Socket) : Conductor := { c with sockets := c.sockets.modify j f }

def Socket.clearPing (sock : Socket) : Socket := { sock with interval := false,timeout := false }

def Socket.clearTimeout (sock : Socket) : Socket := { sock with timeout := false }

/-- `terminate` and `close`: a socket that is not closed yet is about to be. -/
def Socket.terminate (sock : Socket) : Socket :=
  if sock.readyState = .CLOSED then sock else { sock with readyState := .CLOSING }

def Conductor.clearPing (c : Conductor) : Option Nat → Conductor
  | some j => c.touch j Socket.clearPing
  | none => c

/-- The socket is terminated, and forgotten if it is the current one. -/
def Conductor.terminate (c : Conductor) : Option Nat → Conductor
  | some j => { c.touch j Socket.terminate with websocket := if c.websocket = some j then none else c.websocket }
  | none => c

/-- `resetWebsocket`. -/
def Conductor.resetWebsocket (c : Conductor) (currWebsocket currPing : Option Nat) : Conductor :=
  let c := (c.clearPing currPing).terminate currWebsocket
  if c.reconnectTimeout.isSome ∨ c.isShuttingDown then c else { c with reconnectTimeout := some true }

/-- The current socket is open or connecting. -/
def Conductor.connected (c : Conductor) : Bool := c.websocket.any fun j => (c.sockets[j]?).any Socket.live

/-- `dispatchLoop`; the constructor of the socket throws when `opens` is false. -/
def Conductor.dispatchLoop (c : Conductor) (opens : Bool) : Conductor :=
  if c.connected then c
  else
    let c := { c.clearPing c.pingIntervalTimeout with reconnectTimeout := none }
    if c.isShuttingDown then c
    else if opens then
      { c with
        sockets := c.sockets ++ [({} : Socket)]
        websocket := some c.sockets.length
        pingIntervalTimeout := some c.sockets.length }
    else c.resetWebsocket c.websocket c.pingIntervalTimeout

/-- `stop`. -/
def Conductor.stop (c : Conductor) : Conductor :=
  let c := { c.clearPing c.pingIntervalTimeout with
    isShuttingDown := true
    reconnectTimeout := c.reconnectTimeout.map fun _ => false
    isClosed := true }
  match c.websocket with
  | some j => c.touch j Socket.terminate
  | none => c

/-- What the handlers of `close`, `error` and `unexpected-response` and the ping timeout do for the socket `j`. -/
def Conductor.lost (c : Conductor) (j : Nat) : Conductor :=
  if c.reconnectTimeout = none then c.resetWebsocket (some j) (some j) else c

/-- As `lost`, for the handlers that look whether the conductor is shutting down. -/
def Conductor.lostUnlessStopping (c : Conductor) (j : Nat) : Conductor := if c.isShuttingDown then c else c.lost j

/-! ### Events -/

/-- `heard`: a pong or a message. -/
inductive Event
  | reconnect (opens : Bool)
  | opened (j : Nat)
  | heard (j : Nat)
  | pingPeriod (j : Nat)
  | pingTimeout (j : Nat)
  | closing (j : Nat)
  | closed (j : Nat)
  | error (j : Nat)
  | unexpectedResponse (j : Nat)
  | stop
  deriving DecidableEq

def step (c : Conductor) : Event → Option Conductor
  | .reconnect opens =>
    if c.reconnectTimeout = some true then some ({ c with reconnectTimeout := some false }.dispatchLoop opens) else none
  | .opened j =>
    match c.sockets[j]? with
    | some sock =>
      if sock.readyState = .CONNECTING then
        some (c.touch j fun sock => { sock.clearTimeout with readyState := .OPEN })
      else none
    | none => none
  | .heard j =>
    match c.sockets[j]? with
    | some sock => if sock.readyState = .CLOSED then none else some (c.touch j Socket.clearTimeout)
    | none => none
  | .pingPeriod j =>
    match c.sockets[j]? with
    | some sock => if sock.interval then some (c.touch j fun sock => { sock with timeout := true }) else none
    | none => none
  | .pingTimeout j =>
    match c.sockets[j]? with
    | some sock => if sock.timeout then some ((c.touch j Socket.clearTimeout).lostUnlessStopping j) else none
    | none => none
  | .closing j =>
    match c.sockets[j]? with
    | some sock => if sock.readyState = .OPEN then some (c.touch j Socket.terminate) else none
    | none => none
  | .closed j =>
    match c.sockets[j]? with
    | some sock =>
      if sock.readyState = .CLOSED then none
      else some ((c.touch j fun sock => { sock with readyState := .CLOSED }).lostUnlessStopping j)
    | none => none
  | .error j =>
    match c.sockets[j]? with
    | some sock => if sock.readyState = .CLOSED then none else some ((c.touch j Socket.terminate).lost j)
    | none => none
  | .unexpectedResponse j =>
    match c.sockets[j]? with
    | some _ => some (c.lost j)
    | none => none
  | .stop => some c.stop

/-- `launch` calls `dispatchLoop` once. -/
def start (opens : Bool) : Conductor := ({} : Conductor).dispatchLoop opens

/-! ### What an operation does -/

section
variable {c : Conductor}

theorem getElem?_touch (c : Conductor) (j : Nat) (f : Socket → Socket) (k : Nat) :
    (c.touch j f).sockets[k]? = (c.sockets[k]?).map fun sock => if k = j then f sock else sock := by
  simp only [Conductor.touch,List.getElem?_modify]
  cases c.sockets[k]? <;> simp [eq_comm]

theorem terminate_live (sock : Socket) : sock.terminate.live = false := by
  unfold Socket.terminate Socket.live
  split
  · rename_i closed
    simp [closed]
  · simp

/-- What holds in every state: a socket that lives is the current one, the ping that runs is that of the last socket, and after `stop`
    nothing lives or runs. -/
structure Sound (c : Conductor) : Prop where
  current : ∀ j, c.websocket = some j → j < c.sockets.length ∧ c.pingIntervalTimeout = some j
  live : ∀ (k : Nat) sock, c.sockets[k]? = some sock → sock.live = true → c.websocket = some k
  ping : ∀ (k : Nat) sock, c.sockets[k]? = some sock → (sock.interval = true ∨ sock.timeout = true) → c.pingIntervalTimeout = some k
  stopped : c.isShuttingDown = true → c.reconnectTimeout ≠ some true ∧
    ∀ (k : Nat) sock, c.sockets[k]? = some sock → sock.live = false ∧ sock.interval = false

/-- Something is done to one socket that brings nothing to life. -/
theorem Sound.touch (sound : Sound c) (j : Nat) {f : Socket → Socket} (live : ∀ sock, (f sock).live = true → sock.live = true)
    (interval : ∀ sock, (f sock).interval = true → sock.interval = true)
    (timeout : ∀ sock, c.sockets[j]? = some sock → (f sock).timeout = true → sock.interval = true ∨ sock.timeout = true) :
    Sound (c.touch j f) where
  current := by
    intro k current
    obtain ⟨bound,ping⟩ := sound.current k current
    exact ⟨by simpa [Conductor.touch] using bound,ping⟩
  live := by
    intro k sock found lives
    rw [getElem?_touch] at found
    obtain ⟨old,there,rfl⟩ := Option.map_eq_some_iff.mp found
    refine sound.live k old there ?_
    split at lives
    · exact live old lives
    · exact lives
  ping := by
    intro k sock found runs
    rw [getElem?_touch] at found
    obtain ⟨old,there,rfl⟩ := Option.map_eq_some_iff.mp found
    by_cases here : k = j
    · subst here
      rw [if_pos rfl] at runs
      refine sound.ping k old there ?_
      rcases runs with ticks | waits
      · exact .inl (interval old ticks)
      · exact timeout old there waits
    · rw [if_neg here] at runs
      exact sound.ping k old there runs
  stopped := by
    intro stopping
    obtain ⟨timer,sockets⟩ := sound.stopped stopping
    refine ⟨timer,?_⟩
    intro k sock found
    rw [getElem?_touch] at found
    obtain ⟨old,there,rfl⟩ := Option.map_eq_some_iff.mp found
    obtain ⟨dead,quiet⟩ := sockets k old there
    split
    · refine ⟨?_,?_⟩
      · rw [← Bool.not_eq_true] at dead ⊢
        exact fun lives => dead (live old lives)
      · rw [← Bool.not_eq_true] at quiet ⊢
        exact fun ticks => quiet (interval old ticks)
    · exact ⟨dead,quiet⟩

theorem Sound.clearPing (sound : Sound c) (ping : Option Nat) : Sound (c.clearPing ping) := by
  cases ping with
  | none => exact sound
  | some j => exact sound.touch j (fun _ lives => lives) (fun _ ticks => nomatch ticks) (fun _ _ waits => nomatch waits)

theorem Sound.terminates (sound : Sound c) (j : Nat) : Sound (c.touch j Socket.terminate) := by
  have same : ∀ sock : Socket, sock.terminate.interval = sock.interval ∧ sock.terminate.timeout = sock.timeout := by
    intro sock
    unfold Socket.terminate
    split <;> exact ⟨rfl,rfl⟩
  refine sound.touch j ?_ ?_ ?_
  · intro sock lives
    rw [terminate_live] at lives
    cases lives
  · intro sock ticks
    rwa [(same sock).1] at ticks
  · intro sock _ waits
    rw [(same sock).2] at waits
    exact .inr waits

theorem Sound.terminate (sound : Sound c) (websocket : Option Nat) : Sound (c.terminate websocket) := by
  cases websocket with
  | none => exact sound
  | some j =>
    have quiet := sound.terminates j
    by_cases current : c.websocket = some j
    · refine ⟨?_,?_,quiet.ping,quiet.stopped⟩
      · intro k there
        simp [Conductor.terminate,current] at there
      · intro k sock found lives
        have other : k ≠ j := by
          rintro rfl
          simp only [Conductor.terminate,getElem?_touch,if_true] at found
          obtain ⟨old,_,rfl⟩ := Option.map_eq_some_iff.mp found
          rw [terminate_live] at lives
          cases lives
        have was := quiet.live k sock found lives
        have same := was.symm.trans current
        cases same
        exact absurd rfl other
    · have kept : c.terminate (some j) = c.touch j Socket.terminate := by simp [Conductor.terminate,current,Conductor.touch]
      rw [kept]
      exact quiet

/-- The timer is set, or it is not. -/
theorem Sound.timer (sound : Sound c) (timer : Option Bool) (allowed : c.isShuttingDown = true → timer ≠ some true) :
    Sound { c with reconnectTimeout := timer } where
  current := sound.current
  live := sound.live
  ping := sound.ping
  stopped := fun stopping => ⟨allowed stopping,(sound.stopped stopping).2⟩

theorem clearPing_fields (c : Conductor) (ping : Option Nat) :
    (c.clearPing ping).websocket = c.websocket ∧ (c.clearPing ping).isShuttingDown = c.isShuttingDown ∧
      (c.clearPing ping).reconnectTimeout = c.reconnectTimeout ∧ (c.clearPing ping).pingIntervalTimeout = c.pingIntervalTimeout := by
  cases ping <;> exact ⟨rfl,rfl,rfl,rfl⟩

theorem terminate_fields (c : Conductor) (websocket : Option Nat) :
    (c.terminate websocket).isShuttingDown = c.isShuttingDown ∧ (c.terminate websocket).reconnectTimeout = c.reconnectTimeout ∧
      (c.terminate websocket).pingIntervalTimeout = c.pingIntervalTimeout := by
  cases websocket <;> exact ⟨rfl,rfl,rfl⟩

theorem Sound.resetWebsocket (sound : Sound c) (websocket ping : Option Nat) : Sound (c.resetWebsocket websocket ping) := by
  have reset := (sound.clearPing ping).terminate websocket
  unfold Conductor.resetWebsocket
  dsimp only
  split
  · exact reset
  · rename_i free
    refine reset.timer _ ?_
    intro stopping
    exact absurd (.inr stopping) free

theorem Sound.lost (sound : Sound c) (j : Nat) : Sound (c.lost j) := by
  unfold Conductor.lost
  split
  · exact sound.resetWebsocket _ _
  · exact sound

theorem Sound.lostUnlessStopping (sound : Sound c) (j : Nat) : Sound (c.lostUnlessStopping j) := by
  unfold Conductor.lostUnlessStopping
  split
  · exact sound
  · exact sound.lost j

/-- Nothing lives unless the conductor is connected. -/
theorem Sound.nothing_lives (sound : Sound c) (off : c.connected = false) (k : Nat) (sock : Socket)
    (found : c.sockets[k]? = some sock) : sock.live = false := by
  rw [← Bool.not_eq_true]
  intro lives
  have current := sound.live k sock found lives
  simp [Conductor.connected,current,found,lives] at off

theorem clearPing_connected (c : Conductor) (ping : Option Nat) : (c.clearPing ping).connected = c.connected := by
  cases ping with
  | none => rfl
  | some j =>
    simp only [Conductor.connected,Conductor.clearPing,getElem?_touch]
    have same : (c.touch j Socket.clearPing).websocket = c.websocket := rfl
    rw [same]
    congr 1
    funext k
    cases c.sockets[k]? with
    | none => rfl
    | some sock =>
      simp only [Option.map_some,Option.any_some]
      split <;> rfl

theorem Sound.dispatchLoop (sound : Sound c) (opens : Bool) : Sound (c.dispatchLoop opens) := by
  unfold Conductor.dispatchLoop
  split
  · exact sound
  · rename_i off
    rw [Bool.not_eq_true] at off
    have cleared := (sound.clearPing c.pingIntervalTimeout).timer none (by simp)
    have nothing := (sound.clearPing c.pingIntervalTimeout).nothing_lives (by rw [clearPing_connected,off])
    have quiet : ∀ (k : Nat) sock, (c.clearPing c.pingIntervalTimeout).sockets[k]? = some sock →
        ¬ (sock.interval = true ∨ sock.timeout = true) := by
      -- The ping of the last socket is cleared, and no other one runs.
      intro k sock found runs
      have last := (sound.clearPing c.pingIntervalTimeout).ping k sock found runs
      rw [(clearPing_fields c _).2.2.2] at last
      rw [last] at found
      simp only [Conductor.clearPing,getElem?_touch,if_true] at found
      obtain ⟨old,_,rfl⟩ := Option.map_eq_some_iff.mp found
      simp [Socket.clearPing] at runs
    dsimp only
    split
    · exact cleared
    · rename_i stopping
      split
      · refine ⟨?_,?_,?_,?_⟩
        · intro j current
          cases current
          exact ⟨by simp,rfl⟩
        · intro k sock found lives
          rcases party_append found with old | ⟨rfl,_⟩
          · rw [nothing k sock old] at lives
            cases lives
          · rfl
        · intro k sock found runs
          rcases party_append found with old | ⟨rfl,_⟩
          · exact absurd runs (quiet k sock old)
          · rfl
        · intro stops
          exact absurd stops stopping
      · exact cleared.resetWebsocket _ _

theorem Sound.stop (sound : Sound c) : Sound c.stop := by
  have cleared := sound.clearPing c.pingIntervalTimeout
  have quiet : ∀ (k : Nat) sock, (c.clearPing c.pingIntervalTimeout).sockets[k]? = some sock → sock.interval = false := by
    intro k sock found
    rw [← Bool.not_eq_true]
    intro ticks
    have last := cleared.ping k sock found (.inl ticks)
    rw [(clearPing_fields c _).2.2.2] at last
    rw [last] at found
    simp only [Conductor.clearPing,getElem?_touch,if_true] at found
    obtain ⟨old,_,rfl⟩ := Option.map_eq_some_iff.mp found
    cases ticks
  have timer : c.reconnectTimeout.map (fun _ => false) ≠ some true := by cases c.reconnectTimeout <;> simp
  have same := (clearPing_fields c c.pingIntervalTimeout).1
  unfold Conductor.stop
  dsimp only
  split
  · rename_i j current
    have ended := cleared.terminates j
    refine ⟨ended.current,ended.live,ended.ping,?_⟩
    intro _
    refine ⟨timer,?_⟩
    intro k sock found
    have found' : ((c.clearPing c.pingIntervalTimeout).touch j Socket.terminate).sockets[k]? = some sock := found
    refine ⟨?_,?_⟩
    · rw [← Bool.not_eq_true]
      intro lives
      have here := ended.live k sock found' lives
      have named : (c.clearPing c.pingIntervalTimeout).websocket = some k := here
      cases current.symm.trans named
      rw [getElem?_touch] at found'
      obtain ⟨old,_,rfl⟩ := Option.map_eq_some_iff.mp found'
      rw [if_pos rfl,terminate_live] at lives
      cases lives
    · rw [getElem?_touch] at found'
      obtain ⟨old,there,rfl⟩ := Option.map_eq_some_iff.mp found'
      have off := quiet k old there
      split
      · unfold Socket.terminate
        split <;> exact off
      · exact off
  · rename_i nobody
    refine ⟨cleared.current,cleared.live,cleared.ping,?_⟩
    intro _
    refine ⟨timer,?_⟩
    intro k sock found
    refine ⟨?_,quiet k sock found⟩
    rw [← Bool.not_eq_true]
    intro lives
    have here := cleared.live k sock found lives
    have nobody' : (c.clearPing c.pingIntervalTimeout).websocket = none := nobody
    rw [nobody'] at here
    cases here

/-! ### Steps -/

/-- Everything that a step can be: something is done to a socket that keeps its ping, and then the socket may be lost. -/
inductive Moves (c : Conductor) : Event → Conductor → Prop
  | reconnect (opens : Bool) (armed : c.reconnectTimeout = some true) :
      Moves c (.reconnect opens) ({ c with reconnectTimeout := some false }.dispatchLoop opens)
  | keeps (e : Event) (j : Nat) (f : Socket → Socket) (live : ∀ sock, (f sock).live = true → sock.live = true)
      (interval : ∀ sock, (f sock).interval = sock.interval)
      (timeout : ∀ sock, c.sockets[j]? = some sock → (f sock).timeout = true → sock.interval = true ∨ sock.timeout = true) :
      Moves c e (c.touch j f)
  | loses (e : Event) (j : Nat) (f : Socket → Socket) (live : ∀ sock, (f sock).live = true → sock.live = true)
      (interval : ∀ sock, (f sock).interval = sock.interval)
      (timeout : ∀ sock, c.sockets[j]? = some sock → (f sock).timeout = true → sock.interval = true ∨ sock.timeout = true)
      (about : e = .closed j ∨ e = .error j ∨ e = .unexpectedResponse j ∨
        (e = .pingTimeout j ∧ ∃ sock, c.sockets[j]? = some sock ∧ sock.timeout = true))
      (c' : Conductor) (lost : c' = (c.touch j f).lost j ∨ (c.isShuttingDown = true ∧ c' = c.touch j f)) : Moves c e c'
  | stop : Moves c .stop c.stop

theorem lostUnlessStopping_cases (c : Conductor) (j : Nat) :
    c.lostUnlessStopping j = c.lost j ∨ (c.isShuttingDown = true ∧ c.lostUnlessStopping j = c) := by
  unfold Conductor.lostUnlessStopping
  split
  · exact .inr ⟨by assumption,rfl⟩
  · exact .inl rfl

theorem touch_id (c : Conductor) (j : Nat) : c.touch j id = c := by
  have same : c.sockets.modify j id = c.sockets := by
    apply List.ext_getElem?
    intro k
    rw [List.getElem?_modify]
    cases c.sockets[k]? <;> simp
  simp [Conductor.touch,same]

theorem terminate_keeps (sock : Socket) : sock.terminate.interval = sock.interval ∧ sock.terminate.timeout = sock.timeout := by
  unfold Socket.terminate
  split <;> exact ⟨rfl,rfl⟩

theorem step_moves {c' : Conductor} {e : Event} (taken : step c e = some c') : Moves c e c' := by
  have dies : ∀ sock : Socket, sock.terminate.live = true → sock.live = true := by
    intro sock lives
    rw [terminate_live] at lives
    cases lives
  have waits : ∀ sock : Socket, sock.terminate.timeout = true → sock.interval = true ∨ sock.timeout = true := by
    intro sock armed
    rw [(terminate_keeps sock).2] at armed
    exact .inr armed
  cases e with
  | reconnect opens =>
    simp only [step] at taken
    split at taken <;> cases taken
    exact .reconnect opens (by assumption)
  | opened j =>
    simp only [step] at taken
    split at taken
    · rename_i sock found
      split at taken <;> cases taken
      rename_i connecting
      -- Only the socket that is connecting opens.
      have kept := Moves.keeps (c := c) (.opened j) j (fun sock => if sock.readyState = .CONNECTING then
        { sock.clearTimeout with readyState := .OPEN } else sock) (by
          intro sock lives
          split at lives
          · simp_all [Socket.live]
          · exact lives) (by intro sock; split <;> rfl) (by
          intro sock _ armed
          split at armed
          · cases armed
          · exact .inr armed)
      have same : (c.touch j fun sock => { sock.clearTimeout with readyState := .OPEN }) =
          c.touch j fun sock => if sock.readyState = .CONNECTING then { sock.clearTimeout with readyState := .OPEN } else sock := by
        unfold Conductor.touch
        congr 1
        apply List.ext_getElem?
        intro k
        rw [List.getElem?_modify,List.getElem?_modify]
        by_cases here : j = k
        · subst here
          rw [found]
          simp [connecting]
        · simp [here]
      rw [same]
      exact kept
    · cases taken
  | heard j =>
    simp only [step] at taken
    split at taken
    · split at taken <;> cases taken
      exact .keeps _ j _ (fun _ lives => lives) (fun _ => rfl) (fun _ _ armed => nomatch armed)
    · cases taken
  | pingPeriod j =>
    simp only [step] at taken
    split at taken
    · rename_i sock found
      split at taken <;> cases taken
      rename_i ticks
      refine .keeps _ j _ (fun _ lives => lives) (fun _ => rfl) ?_
      intro old there _
      cases found.symm.trans there
      exact .inl ticks
    · cases taken
  | pingTimeout j =>
    simp only [step] at taken
    split at taken
    · rename_i sock found
      split at taken <;> cases taken
      rename_i armed
      exact .loses _ j Socket.clearTimeout (fun _ lives => lives) (fun _ => rfl) (fun _ _ armed => nomatch armed)
        (.inr (.inr (.inr ⟨rfl,sock,found,armed⟩))) _ (lostUnlessStopping_cases _ j)
    · cases taken
  | closing j =>
    simp only [step] at taken
    split at taken
    · split at taken <;> cases taken
      exact .keeps _ j _ dies (fun sock => (terminate_keeps sock).1) (fun sock _ => waits sock)
    · cases taken
  | closed j =>
    simp only [step] at taken
    split at taken
    · split at taken <;> cases taken
      refine .loses _ j (fun sock => { sock with readyState := .CLOSED }) ?_ (fun _ => rfl) (fun _ _ armed => .inr armed) (.inl rfl) _
        (lostUnlessStopping_cases _ j)
      intro sock lives
      simp [Socket.live] at lives
    · cases taken
  | error j =>
    simp only [step] at taken
    split at taken
    · split at taken <;> cases taken
      exact .loses _ j Socket.terminate dies (fun sock => (terminate_keeps sock).1) (fun sock _ => waits sock) (.inr (.inl rfl)) _
        (.inl rfl)
    · cases taken
  | unexpectedResponse j =>
    simp only [step] at taken
    split at taken <;> cases taken
    refine .loses _ j id (fun _ lives => lives) (fun _ => rfl) (fun _ _ armed => .inr armed) (.inr (.inr (.inl rfl))) _ (.inl ?_)
    rw [touch_id]
  | stop =>
    cases taken
    exact .stop

theorem Sound.step (sound : Sound c) {c' : Conductor} {e : Event} (taken : step c e = some c') : Sound c' := by
  cases step_moves taken with
  | reconnect opens armed => exact (sound.timer (some false) (by simp)).dispatchLoop opens
  | keeps e j f live interval timeout => exact sound.touch j live (fun sock ticks => by rwa [interval] at ticks) timeout
  | loses e j f live interval timeout about c' lost =>
    have touched := sound.touch j live (fun sock ticks => by rwa [interval] at ticks) timeout
    rcases lost with rfl | ⟨_,rfl⟩
    · exact touched.lost j
    · exact touched
  | stop => exact sound.stop

/-! ### The link is kept -/

/-- The timer runs and will connect, or the ping of the current socket runs. -/
def Maintained (c : Conductor) : Prop :=
  c.isShuttingDown = false → (c.reconnectTimeout = some true ∧ c.connected = false) ∨
    (c.reconnectTimeout = none ∧ ∃ j sock, c.websocket = some j ∧ c.sockets[j]? = some sock ∧ sock.interval = true)

/-- No event of a socket comes when another one has replaced it and lives. -/
def inTime (c : Conductor) : Event → Bool
  | .closed j | .error j | .unexpectedResponse j => c.connected → c.websocket = some j
  | _ => true

theorem connected_touch (j : Nat) {f : Socket → Socket} (live : ∀ sock, (f sock).live = true → sock.live = true)
    (off : c.connected = false) : (c.touch j f).connected = false := by
  rw [← Bool.not_eq_true] at off ⊢
  intro on
  apply off
  simp only [Conductor.connected,Option.any_eq_true] at on ⊢
  obtain ⟨k,current,sock,found,lives⟩ := on
  rw [getElem?_touch] at found
  obtain ⟨old,there,rfl⟩ := Option.map_eq_some_iff.mp found
  refine ⟨k,current,old,there,?_⟩
  split at lives
  · exact live old lives
  · exact lives

/-- A reset of the current socket, or of any when none lives, leaves the conductor unconnected. -/
theorem reset_unconnected (j : Nat) (mine : c.connected = true → c.websocket = some j) (ping : Option Nat) :
    (c.resetWebsocket (some j) ping).connected = false := by
  have off : ((c.clearPing ping).terminate (some j)).connected = false := by
    by_cases current : c.websocket = some j
    · have named : (c.clearPing ping).websocket = some j := (clearPing_fields c ping).1.trans current
      simp [Conductor.connected,Conductor.terminate,named]
    · have before : (c.clearPing ping).connected = false := by
        rw [clearPing_connected,← Bool.not_eq_true]
        exact fun on => current (mine on)
      have named : (c.clearPing ping).websocket ≠ some j := by
        rw [(clearPing_fields c ping).1]
        exact current
      have kept : (c.clearPing ping).terminate (some j) = (c.clearPing ping).touch j Socket.terminate := by
        simp [Conductor.terminate,named,Conductor.touch]
      rw [kept]
      exact connected_touch j (fun sock lives => by rw [terminate_live] at lives; cases lives) before
  unfold Conductor.resetWebsocket
  dsimp only
  split
  · exact off
  · exact off

theorem reset_arms (free : c.reconnectTimeout = none) (stays : c.isShuttingDown = false) (websocket ping : Option Nat) :
    (c.resetWebsocket websocket ping).reconnectTimeout = some true := by
  have timer : ((c.clearPing ping).terminate websocket).reconnectTimeout = none := by
    rw [(terminate_fields _ _).2.1,(clearPing_fields _ _).2.2.1,free]
  have stopping : ((c.clearPing ping).terminate websocket).isShuttingDown = false := by
    rw [(terminate_fields _ _).1,(clearPing_fields _ _).2.1,stays]
  simp [Conductor.resetWebsocket,timer,stopping]

theorem reset_stopping (websocket ping : Option Nat) : (c.resetWebsocket websocket ping).isShuttingDown = c.isShuttingDown := by
  have same : ((c.clearPing ping).terminate websocket).isShuttingDown = c.isShuttingDown := by
    rw [(terminate_fields _ _).1,(clearPing_fields _ _).2.1]
  unfold Conductor.resetWebsocket
  dsimp only
  split <;> exact same

theorem Maintained.lost (maintained : Maintained c) (j : Nat) (mine : c.connected = true → c.websocket = some j) :
    Maintained (c.lost j) := by
  unfold Conductor.lost
  split
  · rename_i free
    intro stays
    rw [reset_stopping] at stays
    exact .inl ⟨reset_arms free stays _ _,reset_unconnected j mine _⟩
  · exact maintained

theorem Maintained.touch (maintained : Maintained c) (j : Nat) {f : Socket → Socket}
    (live : ∀ sock, (f sock).live = true → sock.live = true) (interval : ∀ sock, (f sock).interval = sock.interval) :
    Maintained (c.touch j f) := by
  intro stays
  rcases maintained stays with ⟨armed,off⟩ | ⟨free,k,sock,current,found,ticks⟩
  · exact .inl ⟨armed,connected_touch j live off⟩
  · refine .inr ⟨free,k,if k = j then f sock else sock,current,by rw [getElem?_touch,found]; rfl,?_⟩
    split
    · rw [interval,ticks]
    · exact ticks

theorem dispatch_connects (off : c.connected = false) (stays : c.isShuttingDown = false) :
    (c.dispatchLoop true).connected = true ∧ Maintained (c.dispatchLoop true) := by
  have stays' : (c.clearPing c.pingIntervalTimeout).isShuttingDown = false := by rw [(clearPing_fields c _).2.1,stays]
  have shape : c.dispatchLoop true = { c.clearPing c.pingIntervalTimeout with
      reconnectTimeout := none
      sockets := (c.clearPing c.pingIntervalTimeout).sockets ++ [({} : Socket)]
      websocket := some (c.clearPing c.pingIntervalTimeout).sockets.length
      pingIntervalTimeout := some (c.clearPing c.pingIntervalTimeout).sockets.length } := by
    simp [Conductor.dispatchLoop,off,stays']
  rw [shape]
  refine ⟨by simp [Conductor.connected,Socket.live],fun _ => .inr ⟨rfl,_,{},rfl,by simp,rfl⟩⟩

/-- Whatever the current socket is, it does not live and is terminated. -/
theorem Maintained.reset (free : c.reconnectTimeout = none) (stays : c.isShuttingDown = false) (off : c.connected = false) :
    Maintained (c.resetWebsocket c.websocket c.pingIntervalTimeout) := by
  intro _
  refine .inl ⟨reset_arms free stays _ _,?_⟩
  cases current : c.websocket with
  | none =>
    have named : (c.clearPing c.pingIntervalTimeout).websocket = none := (clearPing_fields c _).1.trans current
    unfold Conductor.resetWebsocket
    dsimp only [Conductor.terminate]
    split <;> simp [Conductor.connected,named]
  | some j => exact reset_unconnected j (fun on => by rw [off] at on; cases on) _

theorem Maintained.dispatchLoop (off : c.connected = false) (opens : Bool) : Maintained (c.dispatchLoop opens) := by
  by_cases stays : c.isShuttingDown = false
  · cases opens with
    | true => exact (dispatch_connects off stays).2
    | false =>
      have stays' : (c.clearPing c.pingIntervalTimeout).isShuttingDown = false := by rw [(clearPing_fields c _).2.1,stays]
      have shape : c.dispatchLoop false = ({ c.clearPing c.pingIntervalTimeout with reconnectTimeout := none }).resetWebsocket
          (c.clearPing c.pingIntervalTimeout).websocket (c.clearPing c.pingIntervalTimeout).pingIntervalTimeout := by
        simp [Conductor.dispatchLoop,off,stays']
      rw [shape]
      refine Maintained.reset (c := { c.clearPing c.pingIntervalTimeout with reconnectTimeout := none }) rfl stays' ?_
      have same := clearPing_connected c c.pingIntervalTimeout
      rw [off] at same
      exact same
  · intro stays'
    have stopping : (c.dispatchLoop opens).isShuttingDown = true := by
      rw [Bool.not_eq_false] at stays
      have same : (c.clearPing c.pingIntervalTimeout).isShuttingDown = true := by rw [(clearPing_fields c _).2.1,stays]
      simp [Conductor.dispatchLoop,off,same]
    rw [stopping] at stays'
    cases stays'

theorem Maintained.step (sound : Sound c) (maintained : Maintained c) {c' : Conductor} {e : Event} (early : inTime c e = true)
    (taken : step c e = some c') : Maintained c' := by
  cases step_moves taken with
  | reconnect opens armed =>
    by_cases stays : c.isShuttingDown = false
    · have off : c.connected = false := by
        rcases maintained stays with ⟨_,off⟩ | ⟨free,_⟩
        · exact off
        · cases armed.symm.trans free
      exact Maintained.dispatchLoop (c := { c with reconnectTimeout := some false }) off opens
    · rw [Bool.not_eq_false] at stays
      exact absurd armed (sound.stopped stays).1
  | keeps e j f live interval timeout => exact maintained.touch j live interval
  | loses e j f live interval timeout about c' lost =>
    have touched := maintained.touch j live interval
    rcases lost with rfl | ⟨stopping,rfl⟩
    · refine touched.lost j ?_
      intro on
      have before : c.connected = true := by
        rw [← Bool.not_eq_false]
        intro off
        rw [connected_touch j live off] at on
        cases on
      rcases about with rfl | rfl | rfl | ⟨rfl,sock,found,armed⟩
      · exact show c.websocket = some j by simpa [inTime,before] using early
      · exact show c.websocket = some j by simpa [inTime,before] using early
      · exact show c.websocket = some j by simpa [inTime,before] using early
      · -- The ping that times out is that of the current socket.
        obtain ⟨k,current⟩ : ∃ k, c.websocket = some k := by
          simp only [Conductor.connected,Option.any_eq_true] at before
          obtain ⟨k,current,_⟩ := before
          exact ⟨k,current⟩
        have last := (sound.current k current).2
        cases last.symm.trans (sound.ping j sock found (.inr armed))
        exact current
    · exact touched
  | stop =>
    intro stays
    have stopping : c.stop.isShuttingDown = true := by
      unfold Conductor.stop
      dsimp only
      split <;> rfl
    rw [stopping] at stays
    cases stays

/-! ### Runs -/

theorem sound_start (opens : Bool) : Sound (start opens) := by
  have begins : Sound ({} : Conductor) := ⟨(fun _ current => nomatch current),(fun _ _ found => nomatch found),
    (fun _ _ found => nomatch found),fun stopping => nomatch stopping⟩
  exact begins.dispatchLoop opens

theorem maintained_start (opens : Bool) : Maintained (start opens) := Maintained.dispatchLoop rfl opens

theorem sound_runs {opens : Bool} {events : List Event} {c : Conductor} (run : Runs step (start opens) events c) : Sound c :=
  runs_invariant (fun _ _ _ sound taken => sound.step taken) (sound_start opens) run

/-- The link repairs itself: the timer runs and the conductor connects when it fires, or the ping of the current socket runs and sets the
    timer when nothing is heard. -/
def Repairs (c : Conductor) : Prop :=
  (∃ c', step c (.reconnect true) = some c' ∧ c'.connected = true) ∨
    ∃ j c₁ c₂, c.websocket = some j ∧ step c (.pingPeriod j) = some c₁ ∧ step c₁ (.pingTimeout j) = some c₂ ∧
      c₂.reconnectTimeout = some true

theorem Maintained.repairs (maintained : Maintained c) (stays : c.isShuttingDown = false) : Repairs c := by
  rcases maintained stays with ⟨armed,off⟩ | ⟨free,j,sock,current,found,ticks⟩
  · left
    refine ⟨{ c with reconnectTimeout := some false }.dispatchLoop true,by simp only [ConductorLink.step,armed,if_true],?_⟩
    exact (dispatch_connects (c := { c with reconnectTimeout := some false }) off stays).1
  · right
    have rung : (c.touch j fun sock => { sock with timeout := true }).sockets[j]? = some { sock with timeout := true } := by
      rw [getElem?_touch,found]
      simp
    refine ⟨j,c.touch j fun sock => { sock with timeout := true },
      ((c.touch j fun sock => { sock with timeout := true }).touch j Socket.clearTimeout).lostUnlessStopping j,current,
      by simp only [ConductorLink.step,found,ticks,if_true],by simp only [ConductorLink.step,rung,if_true],?_⟩
    have open_ : ((c.touch j fun sock => { sock with timeout := true }).touch j Socket.clearTimeout).isShuttingDown = false := stays
    have none_ : ((c.touch j fun sock => { sock with timeout := true }).touch j Socket.clearTimeout).reconnectTimeout = none := free
    unfold Conductor.lostUnlessStopping Conductor.lost
    rw [if_neg (by rw [open_]; simp),if_pos none_]
    exact reset_arms none_ open_ _ _

/-- After `stop` no socket is created. -/
theorem stopped_for_good {c' : Conductor} {e : Event} (sound : Sound c) (stopping : c.isShuttingDown = true)
    (taken : step c e = some c') : c'.isShuttingDown = true ∧ c'.sockets.length = c.sockets.length := by
  have reset : ∀ (c : Conductor) websocket ping, (c.resetWebsocket websocket ping).sockets.length = c.sockets.length := by
    intro c websocket ping
    have same : ((c.clearPing ping).terminate websocket).sockets.length = c.sockets.length := by
      cases ping <;> cases websocket <;> simp [Conductor.clearPing,Conductor.terminate,Conductor.touch]
    unfold Conductor.resetWebsocket
    dsimp only
    split <;> exact same
  cases step_moves taken with
  | reconnect opens armed => exact absurd armed (sound.stopped stopping).1
  | keeps e j f live interval timeout => exact ⟨stopping,by simp [Conductor.touch]⟩
  | loses e j f live interval timeout about c' lost =>
    have length : (c.touch j f).sockets.length = c.sockets.length := by simp [Conductor.touch]
    rcases lost with rfl | ⟨_,rfl⟩
    · unfold Conductor.lost
      split
      · exact ⟨(reset_stopping _ _).trans stopping,(reset _ _ _).trans length⟩
      · exact ⟨stopping,length⟩
    · exact ⟨stopping,length⟩
  | stop =>
    have cleared : (c.clearPing c.pingIntervalTimeout).sockets.length = c.sockets.length := by
      cases c.pingIntervalTimeout <;> simp [Conductor.clearPing,Conductor.touch]
    unfold Conductor.stop
    dsimp only
    split
    · exact ⟨rfl,by simpa [Conductor.touch] using cleared⟩
    · exact ⟨rfl,cleared⟩

end

/-- In every run at most one socket lives. Once the conductor shuts down, none lives, no ping runs and none is ever created. Until then
    the link repairs itself, as long as no event of a replaced socket comes late. -/
theorem link_kept {opens : Bool} {events : List Event} {c : Conductor} (run : Runs step (start opens) events c) :
    (∀ (j k : Nat) first second, c.sockets[j]? = some first → c.sockets[k]? = some second → first.live = true → second.live = true →
      j = k) ∧
    (c.isShuttingDown = true → (∀ sock ∈ c.sockets,sock.live = false ∧ sock.interval = false) ∧
      ∀ more c', Runs step c more c' → c'.sockets.length = c.sockets.length) ∧
    (Along step (fun c e => inTime c e = true) (start opens) events → c.isShuttingDown = false → Repairs c) := by
  have sound := sound_runs run
  refine ⟨?_,?_,?_⟩
  · intro j k first second found found' lives lives'
    exact Option.some.inj ((sound.live j first found lives).symm.trans (sound.live k second found' lives'))
  · intro stopping
    refine ⟨?_,?_⟩
    · intro sock member
      obtain ⟨k,found⟩ := List.mem_iff_getElem?.mp member
      exact (sound.stopped stopping).2 k sock found
    · intro more c' onward
      have kept := runs_invariant (I := fun c' => Sound c' ∧ c'.isShuttingDown = true ∧ c'.sockets.length = c.sockets.length)
        (fun c₁ e c₂ held taken => ⟨held.1.step taken,(stopped_for_good held.1 held.2.1 taken).1,
          (stopped_for_good held.1 held.2.1 taken).2.trans held.2.2⟩) ⟨sound,stopping,rfl⟩ onward
      exact kept.2.2
  · intro early stays
    have maintained := along_invariant (I := fun c => Sound c ∧ Maintained c)
      (fun _ _ _ held early taken => ⟨held.1.step taken,held.2.step held.1 early taken⟩)
      ⟨sound_start opens,maintained_start opens⟩ early run
    exact maintained.2.repairs stays

/-- The first socket fails, a second one is opened, and then `close` of the second one. -/
def reconnects : List Event := [.opened 0,.error 0,.closed 0,.reconnect true,.opened 1,.closing 1,.closed 1]

theorem link_kept_reconnects : ∃ c, Runs step (start true) reconnects c ∧ c.sockets.length = 2 ∧ Repairs c ∧
    ∀ sock ∈ c.sockets,sock.live = false := by
  refine ⟨_,rfl,rfl,(link_kept (c := _) (show Runs step (start true) reconnects _ from rfl)).2.2 (by decide) rfl,by decide⟩

/-! ### Late events -/

/-- Nothing will create a socket: the field of the timer is set and the timer is gone. -/
def Wedged (c : Conductor) : Prop := c.reconnectTimeout = some false

theorem Wedged.step {c c' : Conductor} {e : Event} (wedged : Wedged c) (taken : step c e = some c') :
    Wedged c' ∧ c'.sockets.length = c.sockets.length := by
  cases step_moves taken with
  | reconnect opens armed => cases armed.symm.trans wedged
  | keeps e j f live interval timeout => exact ⟨wedged,by simp [Conductor.touch]⟩
  | loses e j f live interval timeout about c' lost =>
    have set_ : (c.touch j f).reconnectTimeout ≠ none := by
      intro free
      cases free.symm.trans (show (c.touch j f).reconnectTimeout = some false from wedged)
    rcases lost with rfl | ⟨_,rfl⟩
    · unfold Conductor.lost
      rw [if_neg set_]
      exact ⟨wedged,by simp [Conductor.touch]⟩
    · exact ⟨wedged,by simp [Conductor.touch]⟩
  | stop =>
    have cleared : (c.clearPing c.pingIntervalTimeout).sockets.length = c.sockets.length := by
      cases c.pingIntervalTimeout <;> simp [Conductor.clearPing,Conductor.touch]
    have timer : c.reconnectTimeout.map (fun _ => false) = some false := by rw [wedged]; rfl
    unfold Conductor.stop Wedged
    dsimp only
    split
    · exact ⟨timer,by simpa [Conductor.touch] using cleared⟩
    · exact ⟨timer,cleared⟩

/-- An event of a replaced socket that comes late: while the conductor is not shutting down and no timer runs, `close`, `error` or
    `unexpected-response` of a socket `j` that is not the current one sets the timer, and when it fires while a socket lives, no socket
    is ever created again, whatever becomes of that one. -/
theorem late_event_wedges {between after : List Event} {c c₁ c₂ c₃ c' : Conductor} {j : Nat} {late : Event}
    (stays : c.isShuttingDown = false) (free : c.reconnectTimeout = none) (replaced : c.websocket ≠ some j)
    (about : late = .closed j ∨ late = .error j ∨ late = .unexpectedResponse j) (comes : step c late = some c₁)
    (passes : Runs step c₁ between c₂) (still : c₂.connected = true) {opens' : Bool}
    (fires : step c₂ (.reconnect opens') = some c₃) (onward : Runs step c₃ after c') :
    c₁.reconnectTimeout = some true ∧ c₁.websocket = c.websocket ∧ c'.sockets.length = c₃.sockets.length ∧
      ∀ opens, step c' (.reconnect opens) = none := by
  have reset : ∀ f, ((c.touch j f).lost j).reconnectTimeout = some true ∧ ((c.touch j f).lost j).websocket = c.websocket := by
    intro f
    have none_ : (c.touch j f).reconnectTimeout = none := free
    have open_ : (c.touch j f).isShuttingDown = false := stays
    unfold Conductor.lost
    rw [if_pos none_]
    refine ⟨reset_arms none_ open_ _ _,?_⟩
    have other : ((c.touch j f).clearPing (some j)).websocket ≠ some j := replaced
    unfold Conductor.resetWebsocket
    dsimp only
    split <;> simp only [Conductor.terminate,if_neg other] <;> rfl
  have unlessStopping : ∀ f, (c.touch j f).lostUnlessStopping j = (c.touch j f).lost j := by
    intro f
    have open_ : (c.touch j f).isShuttingDown = false := stays
    simp [Conductor.lostUnlessStopping,open_]
  have first : c₁.reconnectTimeout = some true ∧ c₁.websocket = c.websocket := by
    rcases about with rfl | rfl | rfl
    · simp only [step] at comes
      split at comes
      · split at comes <;> cases comes
        rw [unlessStopping]
        exact reset _
      · cases comes
    · simp only [step] at comes
      split at comes
      · split at comes <;> cases comes
        exact reset _
      · cases comes
    · simp only [step] at comes
      split at comes <;> cases comes
      rw [← touch_id c j]
      exact reset id
  have wedged : Wedged c₃ := by
    simp only [step] at fires
    split at fires <;> cases fires
    have on' : ({ c₂ with reconnectTimeout := some false } : Conductor).connected = true := still
    unfold Conductor.dispatchLoop
    rw [if_pos on']
    rfl
  have kept := runs_invariant (I := fun c' => Wedged c' ∧ c'.sockets.length = c₃.sockets.length)
    (fun _ _ _ held taken => ⟨(held.1.step taken).1,(held.1.step taken).2.trans held.2⟩) ⟨wedged,rfl⟩ onward
  refine ⟨first.1,first.2,kept.2,?_⟩
  intro opens
  simp only [step,show c'.reconnectTimeout = some false from kept.1]
  rfl

/-- The first socket fails and is replaced, and its `close` comes when the second one is open; then that one is lost. -/
theorem late_event_wedges_close : ∃ c c₁ c₂ c', Runs step (start true) [.opened 0,.error 0,.reconnect true,.opened 1] c ∧
    step c (.closed 0) = some c₁ ∧ step c₁ (.reconnect true) = some c₂ ∧ Runs step c₂ [.closing 1,.closed 1] c' ∧
    c'.connected = false ∧ c'.isShuttingDown = false ∧ ∀ opens, step c' (.reconnect opens) = none := by
  obtain ⟨c,c₁,c₂,c',reached,on,stays,free,replaced,comes,still,fires,onward,off,runs⟩ : ∃ c c₁ c₂ c',
      Runs step (start true) [.opened 0,.error 0,.reconnect true,.opened 1] c ∧ c.connected = true ∧ c.isShuttingDown = false ∧
      c.reconnectTimeout = none ∧ c.websocket ≠ some 0 ∧ step c (.closed 0) = some c₁ ∧ c₁.connected = true ∧
      step c₁ (.reconnect true) = some c₂ ∧ Runs step c₂ [.closing 1,.closed 1] c' ∧ c'.connected = false ∧
      c'.isShuttingDown = false := ⟨_,_,_,_,rfl,rfl,rfl,rfl,by decide,rfl,rfl,rfl,rfl,rfl,rfl⟩
  have wedges := late_event_wedges stays free replaced (.inl rfl) comes (runs_nil.mpr rfl) still fires onward
  exact ⟨c,c₁,c₂,c',reached,comes,fires,onward,off,runs,wedges.2.2.2⟩

end Dbos.ConductorLink
