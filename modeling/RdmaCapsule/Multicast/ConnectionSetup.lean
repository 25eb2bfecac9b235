import RdmaCapsule.Multicast.Daemon

/-! Setting up a connection. A thread assigns the fields of a new `Connection`, registers
it, and somewhere on the way posts its handler to the event queue of a worker, which may
be another thread or the very one that runs the set-up. One step here is one assignment
of the set-up, one queue taken by a worker, or one callback run by it. A set-up opens
one connection or two, named 0 and 1; callbacks change none of the fields below. -/
namespace RdmaCapsule.Multicast

open RdmaCapsule.Foundation

inductive Callback where
  | clientConnRead
  | clientConnWrite
  | serverConnRead
  | serverConnWrite
  | mcClientConnRead
  | mcClientConnWrite
  | mcServerConnRead
  | mcServerConnWrite
  deriving DecidableEq, Repr

/-- What the set-up writes. Entries and slots that hold a connection of some other
call are `none`, as are those that hold nothing. -/
structure Fields where
  /-- The constructor leaves both callbacks indeterminate. -/
  readCallback : Fin 2 → Option Callback
  writeCallback : Fin 2 → Option Callback
  mcId : Fin 2 → McId
  conns : EntityAddr → Option (Fin 2)
  acceptingConns : Fin 2 → Bool
  multicastConnections : McId → Option (Fin 3 → Option (Fin 2))

def kNumMulticasts : Nat := 2

/-- `get_mc_index` as it is: with no match it returns the number of members. -/
def Fields.getMcIndex (fields : Fields) (mcId : McId) (c : Fin 2) : Except Stop Nat :=
  match fields.multicastConnections mcId with
  | none => .error .kassertConnections
  | some connections =>
      if connections 1 = some c then .ok 0
      else if connections 2 = some c then .ok 1
      else .ok kNumMulticasts

inductive SetupStep where
  | readCallback (c : Fin 2) (callback : Callback)
  | writeCallback (c : Fin 2) (callback : Callback)
  | connect (c : Fin 2)
  | accept (c : Fin 2)
  | insertAccepting (c : Fin 2)
  | insertConns (target : EntityAddr) (c : Fin 2)
  | newGroup (mcId : McId)
  | setMcId (c : Fin 2) (mcId : McId)
  | insertSlot (mcId : McId) (i : Fin 2) (c : Fin 2)
  deriving DecidableEq, Repr

namespace SetupStep

/-- The connection whose handler a step posts. -/
def posts : SetupStep → Option (Fin 2)
  | .connect c | .accept c => some c
  | _ => none

def assign (fields : Fields) : SetupStep → Fields
  | .readCallback c callback =>
      { fields with readCallback := Function.update fields.readCallback c (some callback) }
  | .writeCallback c callback =>
      { fields with writeCallback := Function.update fields.writeCallback c (some callback) }
  | .connect _ | .accept _ => fields
  | .insertAccepting c =>
      { fields with acceptingConns := Function.update fields.acceptingConns c true }
  | .insertConns target c =>
      { fields with conns := Function.update fields.conns target (some c) }
  | .newGroup mcId =>
      { fields with
        multicastConnections :=
          Function.update fields.multicastConnections mcId (some fun _ => none) }
  | .setMcId c mcId => { fields with mcId := Function.update fields.mcId c mcId }
  | .insertSlot mcId i c =>
      -- `operator[]` makes the array where there is none.
      let connections := (fields.multicastConnections mcId).getD fun _ => none
      { fields with
        multicastConnections := Function.update fields.multicastConnections mcId
          (some (Function.update connections i.succ (some c))) }

end SetupStep

/-- The places that set a connection up; a client has named `addrs` and has got `mcId`. -/
inductive Place where
  | createConnect (target : EntityAddr)
  | accept
  | processClientReadable (mcId : McId) (addrs : Fin 2 → EntityAddr)

/-- The body of the loop of `process_client_readable`. -/
def openMember (mcId : McId) (addrs : Fin 2 → EntityAddr) (i : Fin 2) : List SetupStep :=
  [.readCallback i .mcServerConnRead, .writeCallback i .mcServerConnWrite, .connect i,
    .insertConns (addrs i) i, .setMcId i mcId, .insertSlot mcId i i]

namespace Place

def program : Place → List SetupStep
  | .createConnect target =>
      [.writeCallback 0 .clientConnWrite, .readCallback 0 .clientConnRead, .connect 0,
        .insertConns target 0]
  | .accept =>
      [.accept 0, .insertAccepting 0, .readCallback 0 .mcClientConnRead,
        .writeCallback 0 .mcClientConnWrite]
  | .processClientReadable mcId addrs =>
      .newGroup mcId :: (openMember mcId addrs 0 ++ openMember mcId addrs 1)

/-- The connections a place opens. -/
def Opens : Place → Fin 2 → Prop
  | .createConnect _, c | .accept, c => c = 0
  | .processClientReadable _ _, _ => True

/-- All that a place sets for a connection has been set. -/
def Ready : Place → Fields → Fin 2 → Prop
  | .createConnect target, fields, c =>
      fields.readCallback c = some .clientConnRead ∧
      fields.writeCallback c = some .clientConnWrite ∧
      fields.conns target = some c
  | .accept, fields, c =>
      fields.readCallback c = some .mcClientConnRead ∧
      fields.writeCallback c = some .mcClientConnWrite ∧
      fields.acceptingConns c = true
  | .processClientReadable mcId addrs, fields, c =>
      fields.readCallback c = some .mcServerConnRead ∧
      fields.writeCallback c = some .mcServerConnWrite ∧
      fields.conns (addrs c) = some c ∧
      fields.mcId c = mcId ∧
      (∃ connections, fields.multicastConnections mcId = some connections ∧
        connections c.succ = some c) ∧
      ∃ index < kNumMulticasts, fields.getMcIndex (fields.mcId c) c = .ok index

/-- `conns` has one entry for an address. -/
def Distinct : Place → Prop
  | .createConnect _ | .accept => True
  | .processClientReadable _ addrs => addrs 0 ≠ addrs 1

end Place

/-- `Server::accept`, the base class's version of `MulticastDaemon::accept`. -/
def serverAccept : List SetupStep :=
  [.readCallback 0 .serverConnRead, .writeCallback 0 .serverConnWrite, .accept 0,
    .insertAccepting 0]

/-- The state of a `Connection`. -/
inductive ConnState where
  | none
  | connecting
  | connectingRe
  | accepting
  | connectionEstablished
  | closed
  deriving DecidableEq, Repr

inductive Handler where
  | readHandler
  | readCallbackHandler
  | writeCallbackHandler
  deriving DecidableEq, Repr

structure ConnEvent where
  handler : Handler
  conn : Fin 2
  deriving DecidableEq, Repr

inductive Mask where
  | readable
  | writable
  deriving DecidableEq, Repr

/-- The handler registered for a file event of a connection. -/
def Mask.handler : Mask → Handler
  | .readable => .readCallbackHandler
  | .writable => .readHandler

/-- What `worker->connect`, `cs.is_connected` and
`stack->nonblock_connect_need_writable_event` return. -/
structure SocketAnswers where
  connect : Int
  isConnected : Int
  needWritableEvent : Bool

inductive SetupStop where
  | kassertNotConnected
  deriving DecidableEq, Repr

/-- The part of a `Connection` that its own thread works on. -/
structure ConnSocket where
  state : ConnState
  cs : Bool
  /-- The registered file events. -/
  events : Mask → Bool

namespace ConnSocket

def new : ConnSocket := ⟨.none, false, fun _ => false⟩

/-- `Connection::process`, and whether it posts the write callback. -/
def process (answers : SocketAnswers) (socket : ConnSocket) :
    Except SetupStop (ConnSocket × Bool) :=
  match socket.state with
  | .none | .closed | .connectionEstablished => .ok (socket, false)
  | .connecting =>
      let socket := if socket.cs then { socket with cs := false, events := fun _ => false }
        else socket
      if answers.connect < 0 then .ok (socket, false)
      else if 0 < answers.isConnected then .error .kassertNotConnected
      else .ok ({ state := .connectingRe, cs := true, events := fun _ => true }, false)
  | .connectingRe =>
      if answers.isConnected < 0 then .ok (socket, false)
      else if answers.isConnected = 0 then
        if answers.needWritableEvent then
          .ok ({ socket with events := Function.update socket.events .writable true }, false)
        else .ok (socket, false)
      else
        .ok ({ socket with
          state := .connectionEstablished
          events := Function.update socket.events .writable false }, true)
  | .accepting =>
      .ok ({ socket with
        state := .connectionEstablished
        events := Function.update socket.events .readable true }, true)

end ConnSocket

/-- A set-up under way, with the workers of type `W`. -/
structure ConnectionSetup (W : Type u) where
  /-- The steps that the posting thread has still to take. -/
  program : List SetupStep
  fields : Fields
  sockets : Fin 2 → ConnSocket
  externalEvents : W → List ConnEvent
  /-- The events that a worker has taken out of its queue and not run yet. -/
  curProcess : W → List ConnEvent

namespace ConnectionSetup

variable {W : Type u}

def startFields (grouped : McId → Bool) : Fields where
  readCallback _ := none
  writeCallback _ := none
  mcId _ := 0
  conns _ := none
  acceptingConns _ := false
  -- The groups of earlier clients hold none of the new connections.
  multicastConnections mcId := if grouped mcId then some fun _ => none else none

def start (grouped : McId → Bool) (program : List SetupStep) : ConnectionSetup W where
  program
  fields := startFields grouped
  sockets _ := .new
  externalEvents _ := []
  curProcess _ := []

section

variable [DecidableEq W]

/-- `dispatch_event_external` of the worker's center. -/
def dispatch (worker : Fin 2 → W) (event : ConnEvent) (st : ConnectionSetup W) :
    ConnectionSetup W :=
  if (st.externalEvents (worker event.conn)).getLast? = some event then st
  else
    { st with
      externalEvents := Function.update st.externalEvents (worker event.conn)
        (st.externalEvents (worker event.conn) ++ [event]) }

/-- One step of the posting thread. `connect` and `accept` hold the lock of the
connection until they have posted its handler. -/
def perform (worker : Fin 2 → W) (st : ConnectionSetup W) (step : SetupStep) :
    ConnectionSetup W :=
  let st := { st with fields := step.assign st.fields }
  match step with
  | .connect c =>
      let socket := { st.sockets c with state := .connecting }
      { st with sockets := Function.update st.sockets c socket }.dispatch worker
        ⟨.readHandler, c⟩
  | .accept c =>
      let socket := { st.sockets c with state := .accepting, cs := true }
      { st with sockets := Function.update st.sockets c socket }.dispatch worker
        ⟨.readHandler, c⟩
  | _ => st

def runEvent (worker : Fin 2 → W) (event : ConnEvent) (answers : SocketAnswers)
    (st : ConnectionSetup W) : Except SetupStop (ConnectionSetup W) :=
  match event.handler with
  | .readHandler =>
      match (st.sockets event.conn).process answers with
      | .error stop => .error stop
      | .ok (socket, established) =>
          let st := { st with sockets := Function.update st.sockets event.conn socket }
          .ok (if established then st.dispatch worker ⟨.writeCallbackHandler, event.conn⟩
            else st)
  | .readCallbackHandler | .writeCallbackHandler => .ok st

inductive Act (W : Type u) where
  /-- The posting thread takes its next step. -/
  | post
  /-- A worker takes what is in its queue. -/
  | swap (w : W)
  | run (w : W) (answers : SocketAnswers)
  /-- A file event of a connection fires. -/
  | fire (c : Fin 2) (mask : Mask) (answers : SocketAnswers)

/-- A worker that is itself the posting thread runs nothing until the set-up returns. -/
def Free (poster : Option W) (st : ConnectionSetup W) (w : W) : Prop :=
  poster = some w → st.program = []

def Enabled (poster : Option W) (worker : Fin 2 → W) (st : ConnectionSetup W) : Act W → Prop
  | .post => st.program ≠ []
  | .swap w => st.Free poster w ∧ st.curProcess w = []
  | .run w _ => st.Free poster w ∧ st.curProcess w ≠ []
  | .fire c mask _ => st.Free poster (worker c) ∧ st.curProcess (worker c) = [] ∧
      (st.sockets c).events mask = true

def step (worker : Fin 2 → W) (st : ConnectionSetup W) :
    Act W → Except SetupStop (ConnectionSetup W)
  | .post =>
      match st.program with
      | [] => .ok st
      | step :: rest => .ok ({ st with program := rest }.perform worker step)
  | .swap w => .ok { st with
      externalEvents := Function.update st.externalEvents w []
      curProcess := Function.update st.curProcess w (st.externalEvents w) }
  | .run w answers =>
      match st.curProcess w with
      | [] => .ok st
      | event :: rest =>
          { st with curProcess := Function.update st.curProcess w rest }.runEvent worker event
            answers
  | .fire c mask answers => st.runEvent worker ⟨mask.handler, c⟩ answers

def machine (program : List SetupStep) (poster : Option W) (worker : Fin 2 → W)
    (grouped : McId → Bool) : Machine (ConnectionSetup W) (Act W) SetupStop where
  start st := st = start grouped program
  enabled := Enabled poster worker
  step := step worker

end

/-- The handler or callback that an act runs. -/
def Act.event (st : ConnectionSetup W) : Act W → Option ConnEvent
  | .post | .swap _ => none
  | .run w _ => (st.curProcess w).head?
  | .fire c mask _ => some ⟨mask.handler, c⟩

/-- An event of a connection can run now. -/
def Runs (poster : Option W) (worker : Fin 2 → W) (st : ConnectionSetup W)
    (event : ConnEvent) : Prop :=
  ∃ act : Act W, Enabled poster worker st act ∧ act.event st = some event

/-- The steps `done` have posted the handler of a connection. -/
def Posted (done : List SetupStep) (c : Fin 2) : Prop :=
  ∃ step ∈ done, step.posts = some c

/-- Events of posted connections of the worker `w`. -/
def Owned (worker : Fin 2 → W) (done : List SetupStep) (w : W) (events : List ConnEvent) : Prop :=
  ∀ event ∈ events, worker event.conn = w ∧ Posted done event.conn

/-- What a state keeps of the steps taken so far: they have made the fields what they
are, and only connections that they have posted can run, each on its own worker. -/
structure Keeps (program : List SetupStep) (worker : Fin 2 → W) (grouped : McId → Bool)
    (st : ConnectionSetup W) (done : List SetupStep) : Prop where
  split : done ++ st.program = program
  fields : st.fields = done.foldl SetupStep.assign (startFields grouped)
  queued : ∀ w, Owned worker done w (st.externalEvents w)
  taken : ∀ w, Owned worker done w (st.curProcess w)
  registered : ∀ c mask, (st.sockets c).events mask = true → Posted done c

variable {program done : List SetupStep} {poster : Option W} {worker : Fin 2 → W}
  {grouped : McId → Bool} {st st' : ConnectionSetup W}

theorem Posted.append_left {c : Fin 2} (h : Posted done c) (rest : List SetupStep) :
    Posted (done ++ rest) c := by
  obtain ⟨step, hmem, hposts⟩ := h
  exact ⟨step, List.mem_append_left rest hmem, hposts⟩

theorem Owned.append_left {w : W} {events : List ConnEvent} (h : Owned worker done w events)
    (rest : List SetupStep) : Owned worker (done ++ rest) w events := by
  intro event hmem
  obtain ⟨hworker, hposted⟩ := h event hmem
  exact ⟨hworker, hposted.append_left rest⟩

/-- All but the event it posts, after a step of the set-up. -/
theorem Keeps.assign (h : Keeps program worker grouped st done) {step : SetupStep}
    {rest : List SetupStep} (hprogram : st.program = step :: rest)
    (sockets : Fin 2 → ConnSocket)
    (hsockets : ∀ c, (sockets c).events = (st.sockets c).events) :
    Keeps program worker grouped
      { st with program := rest, fields := step.assign st.fields, sockets } (done ++ [step]) where
  split := by rw [← h.split, hprogram, List.append_assoc, List.singleton_append]
  fields := by rw [List.foldl_append, List.foldl_cons, List.foldl_nil, h.fields]
  queued w := (h.queued w).append_left [step]
  taken w := (h.taken w).append_left [step]
  registered c mask hevent := by
    change (sockets c).events mask = true at hevent
    rw [hsockets] at hevent
    exact (h.registered c mask hevent).append_left [step]

/-- An event runs after its connection has been posted, and on a free worker. -/
theorem Keeps.runs (h : Keeps program worker grouped st done) {event : ConnEvent}
    (hruns : Runs poster worker st event) :
    Posted done event.conn ∧ st.Free poster (worker event.conn) := by
  obtain ⟨act, henabled, hevent⟩ := hruns
  cases act with
  | post => simp [Act.event] at hevent
  | swap w => simp [Act.event] at hevent
  | run w answers =>
      obtain ⟨hworker, hposted⟩ := h.taken w event (List.mem_of_mem_head? hevent)
      rw [hworker]
      exact ⟨hposted, henabled.1⟩
  | fire c mask answers =>
      obtain rfl : ⟨mask.handler, c⟩ = event := Option.some.inj hevent
      exact ⟨h.registered c mask henabled.2.2, henabled.1⟩

variable [DecidableEq W]

theorem Keeps.dispatch (h : Keeps program worker grouped st done) {event : ConnEvent}
    (hposted : Posted done event.conn) :
    Keeps program worker grouped (st.dispatch worker event) done := by
  unfold ConnectionSetup.dispatch
  split
  · exact h
  · refine ⟨h.split, h.fields, ?_, h.taken, h.registered⟩
    refine (Function.forall_update_iff _ _).2 ⟨?_, fun w _ => h.queued w⟩
    intro other hmem
    rcases List.mem_append.1 hmem with hmem | hmem
    · exact h.queued _ other hmem
    · obtain rfl := List.mem_singleton.1 hmem
      exact ⟨rfl, hposted⟩

theorem Keeps.perform (h : Keeps program worker grouped st done) {step : SetupStep}
    {rest : List SetupStep} (hprogram : st.program = step :: rest) :
    Keeps program worker grouped ({ st with program := rest }.perform worker step)
      (done ++ [step]) := by
  cases step with
  | connect c =>
      refine (h.assign hprogram _ ?_).dispatch ⟨.connect c, by simp, rfl⟩
      exact (Function.forall_update_iff _ fun c' (socket : ConnSocket) =>
        socket.events = (st.sockets c').events).2 ⟨rfl, fun _ _ => rfl⟩
  | accept c =>
      refine (h.assign hprogram _ ?_).dispatch ⟨.accept c, by simp, rfl⟩
      exact (Function.forall_update_iff _ fun c' (socket : ConnSocket) =>
        socket.events = (st.sockets c').events).2 ⟨rfl, fun _ _ => rfl⟩
  | _ => exact h.assign hprogram st.sockets fun _ => rfl

theorem Keeps.runEvent (h : Keeps program worker grouped st done) {event : ConnEvent}
    {answers : SocketAnswers} (hposted : Posted done event.conn)
    (hrun : st.runEvent worker event answers = .ok st') :
    Keeps program worker grouped st' done := by
  unfold ConnectionSetup.runEvent at hrun
  cases hhandler : event.handler with
  | readHandler =>
      cases hprocess : (st.sockets event.conn).process answers with
      | error stop => simp [hhandler, hprocess] at hrun
      | ok result =>
          obtain ⟨socket, established⟩ := result
          simp only [hhandler, hprocess, Except.ok.injEq] at hrun
          subst hrun
          have hkeeps : Keeps program worker grouped
              { st with sockets := Function.update st.sockets event.conn socket } done :=
            ⟨h.split, h.fields, h.queued, h.taken, (Function.forall_update_iff _
              fun c (socket : ConnSocket) => ∀ mask, socket.events mask = true → Posted done c).2
                ⟨fun _ _ => hposted, fun c _ => h.registered c⟩⟩
          split
          · exact hkeeps.dispatch hposted
          · exact hkeeps
  | readCallbackHandler =>
      simp only [hhandler, Except.ok.injEq] at hrun
      exact hrun ▸ h
  | writeCallbackHandler =>
      simp only [hhandler, Except.ok.injEq] at hrun
      exact hrun ▸ h

theorem Keeps.step (h : Keeps program worker grouped st done) {act : Act W}
    (henabled : Enabled poster worker st act) (hstep : st.step worker act = .ok st') :
    ∃ done', Keeps program worker grouped st' done' := by
  cases act with
  | post =>
      cases hprogram : st.program with
      | nil => exact absurd hprogram henabled
      | cons step rest =>
          simp only [ConnectionSetup.step, hprogram, Except.ok.injEq] at hstep
          subst hstep
          exact ⟨done ++ [step], h.perform hprogram⟩
  | swap w =>
      simp only [ConnectionSetup.step, Except.ok.injEq] at hstep
      subst hstep
      refine ⟨done, h.split, h.fields, ?_, ?_, h.registered⟩
      · exact (Function.forall_update_iff _ _).2 ⟨nofun, fun w' _ => h.queued w'⟩
      · exact (Function.forall_update_iff _ _).2 ⟨h.queued w, fun w' _ => h.taken w'⟩
  | run w answers =>
      cases htaken : st.curProcess w with
      | nil => exact absurd htaken henabled.2
      | cons event rest =>
          simp only [ConnectionSetup.step, htaken] at hstep
          have howned : Owned worker done w (event :: rest) := htaken ▸ h.taken w
          have hposted : Posted done event.conn := (howned event List.mem_cons_self).2
          refine ⟨done, Keeps.runEvent ?_ hposted hstep⟩
          refine ⟨h.split, h.fields, h.queued, ?_, h.registered⟩
          refine (Function.forall_update_iff _ _).2 ⟨?_, fun w' _ => h.taken w'⟩
          exact fun other hmem => howned other (List.mem_cons_of_mem event hmem)
  | fire c mask answers =>
      have hposted : Posted done c := h.registered c mask henabled.2.2
      exact ⟨done, h.runEvent hposted hstep⟩

theorem keeps_of_reachable (h : (machine program poster worker grouped).Reachable st) :
    ∃ done, Keeps program worker grouped st done := by
  apply h.invariant
  · rintro first rfl
    exact ⟨[], rfl, rfl, nofun, nofun, nofun⟩
  · rintro before act after _ ⟨done, hkeeps⟩ henabled hstep
    exact hkeeps.step henabled hstep

/-- The posting thread takes its next `n` steps and no worker runs. -/
def postSteps (worker : Fin 2 → W) : Nat → ConnectionSetup W → ConnectionSetup W
  | 0, st => st
  | n + 1, st =>
      match st.program with
      | [] => st
      | step :: rest => postSteps worker n ({ st with program := rest }.perform worker step)

@[simp] theorem dispatch_fields (event : ConnEvent) :
    (st.dispatch worker event).fields = st.fields := by
  unfold ConnectionSetup.dispatch
  split <;> rfl

@[simp] theorem dispatch_program (event : ConnEvent) :
    (st.dispatch worker event).program = st.program := by
  unfold ConnectionSetup.dispatch
  split <;> rfl

@[simp] theorem dispatch_curProcess (event : ConnEvent) :
    (st.dispatch worker event).curProcess = st.curProcess := by
  unfold ConnectionSetup.dispatch
  split <;> rfl

@[simp] theorem perform_fields (step : SetupStep) :
    (st.perform worker step).fields = step.assign st.fields := by
  cases step <;> simp [ConnectionSetup.perform]

@[simp] theorem perform_program (step : SetupStep) :
    (st.perform worker step).program = st.program := by
  cases step <;> simp [ConnectionSetup.perform]

@[simp] theorem perform_curProcess (step : SetupStep) :
    (st.perform worker step).curProcess = st.curProcess := by
  cases step <;> simp [ConnectionSetup.perform]

theorem postSteps_fields (n : Nat) :
    (st.postSteps worker n).fields = (st.program.take n).foldl SetupStep.assign st.fields := by
  induction n generalizing st with
  | zero => rfl
  | succ n ih =>
      unfold postSteps
      split
      · simp [*]
      · simp [*]

theorem postSteps_program (n : Nat) :
    (st.postSteps worker n).program = st.program.drop n := by
  induction n generalizing st with
  | zero => rfl
  | succ n ih =>
      unfold postSteps
      split
      · simp [*]
      · simp [*]

theorem postSteps_curProcess (n : Nat) :
    (st.postSteps worker n).curProcess = st.curProcess := by
  induction n generalizing st with
  | zero => rfl
  | succ n ih =>
      unfold postSteps
      split
      · rfl
      · simp [ih]

theorem reachable_postSteps (n : Nat)
    (h : (machine program poster worker grouped).Reachable st) :
    (machine program poster worker grouped).Reachable (st.postSteps worker n) := by
  induction n generalizing st with
  | zero => exact h
  | succ n ih =>
      unfold postSteps
      split
      · exact h
      · rename_i step rest hprogram
        refine ih (h.next .post ?_ ?_)
        · change st.program ≠ []
          simp [hprogram]
        · change st.step worker .post = _
          simp [ConnectionSetup.step, hprogram]

/-- With its queue taken, a free worker runs the first event of it. -/
theorem exists_runs (h : (machine program poster worker grouped).Reachable st)
    {w : W} {event : ConnEvent} {events : List ConnEvent} (hfree : st.Free poster w)
    (htaken : st.curProcess w = []) (hqueued : st.externalEvents w = event :: events) :
    ∃ st', (machine program poster worker grouped).Reachable st' ∧ st'.fields = st.fields ∧
      Runs poster worker st' event := by
  refine ⟨_, h.next (.swap w) ⟨hfree, htaken⟩ rfl, rfl, .run w ⟨0, 0, false⟩, ?_, ?_⟩
  · refine ⟨hfree, ?_⟩
    simp [hqueued]
  · simp [Act.event, hqueued]

end ConnectionSetup

namespace Place

open ConnectionSetup

variable {W : Type u} [DecidableEq W] {place : Place} {poster : Option W} {worker : Fin 2 → W}
  {grouped : McId → Bool}

theorem opens_of_posted {c : Fin 2} (h : Posted place.program c) : place.Opens c := by
  cases place with
  | createConnect target => simpa [Opens, Posted, program, SetupStep.posts, eq_comm] using h
  | accept => simpa [Opens, Posted, program, SetupStep.posts, eq_comm] using h
  | processClientReadable mcId addrs => trivial

/-- Once a place has returned, its connections are set up. -/
theorem ready_of_returned {c : Fin 2} (hopens : place.Opens c) (hdistinct : place.Distinct) :
    place.Ready (place.program.foldl SetupStep.assign (startFields grouped)) c := by
  cases place with
  | createConnect target =>
      obtain rfl : c = 0 := hopens
      simp [Ready, program, SetupStep.assign]
  | accept =>
      obtain rfl : c = 0 := hopens
      simp [Ready, program, SetupStep.assign]
  | processClientReadable mcId addrs =>
      change addrs 0 ≠ addrs 1 at hdistinct
      match c with
      | 0 => simp [Ready, program, openMember, SetupStep.assign, Fields.getMcIndex,
          kNumMulticasts, hdistinct]
      | 1 => simp [Ready, program, openMember, SetupStep.assign, Fields.getMcIndex,
          kNumMulticasts]

/-- Every event of the set-up finds its connection set up. -/
def Safe (place : Place) (poster : Option W) (worker : Fin 2 → W) (grouped : McId → Bool) :
    Prop :=
  ∀ st, (machine place.program poster worker grouped).Reachable st →
    ∀ event, Runs poster worker st event → place.Ready st.fields event.conn

theorem safe_of_posted_by_worker (hworker : ∀ c, place.Opens c → poster = some (worker c))
    (hdistinct : place.Distinct) : place.Safe poster worker grouped := by
  intro st h event hruns
  obtain ⟨done, hkeeps⟩ := keeps_of_reachable h
  obtain ⟨hposted, hfree⟩ := hkeeps.runs hruns
  have hopens : place.Opens event.conn := by
    apply opens_of_posted
    rw [← hkeeps.split]
    exact hposted.append_left st.program
  -- The worker is the posting thread, so that the set-up has returned.
  have hreturned : st.program = [] := hfree (hworker event.conn hopens)
  have hdone : done = place.program := by
    rw [← hkeeps.split, hreturned, List.append_nil]
  rw [hkeeps.fields, hdone]
  exact ready_of_returned hopens hdistinct

/-- After `n` steps of the set-up, an event that is first in the queue of a free worker
can run. -/
theorem Safe.ready (h : place.Safe poster worker grouped) (n : Nat) (c : Fin 2)
    (events : List ConnEvent)
    (hfree : poster = some (worker c) → place.program.length ≤ n)
    (hqueued : ((start grouped place.program).postSteps worker n).externalEvents (worker c) =
      ⟨.readHandler, c⟩ :: events) :
    place.Ready ((place.program.take n).foldl SetupStep.assign (startFields grouped)) c := by
  have hreachable : (machine place.program poster worker grouped).Reachable
      ((start grouped place.program).postSteps worker n) := reachable_postSteps n (.start rfl)
  have hprogram : ((start grouped place.program).postSteps worker n).Free poster (worker c) := by
    intro hposter
    rw [postSteps_program]
    exact List.drop_eq_nil_of_le (hfree hposter)
  have htaken : ((start grouped place.program).postSteps worker n).curProcess (worker c) = [] := by
    rw [postSteps_curProcess]
    rfl
  obtain ⟨st, hst, hfields, hruns⟩ := exists_runs hreachable hprogram htaken hqueued
  have hready := h st hst ⟨.readHandler, c⟩ hruns
  rw [hfields, postSteps_fields] at hready
  exact hready

/-- Right after the handler of a member has been posted, its registration is missing. -/
theorem member_posted_by_worker {mcId : McId} {addrs : Fin 2 → EntityAddr}
    (h : (processClientReadable mcId addrs).Safe poster worker grouped) (c : Fin 2) :
    poster = some (worker c) := by
  have hfirst : poster = some (worker 0) := by
    by_contra hposter
    have hready := h.ready 4 0 [] (fun heq => absurd heq hposter)
      (by simp [postSteps, start, program, openMember, perform, dispatch])
    simp [Ready, program, openMember, SetupStep.assign, startFields] at hready
  match c with
  | 0 => exact hfirst
  | 1 =>
      by_contra hposter
      -- The queue of the second worker holds nothing of the first connection.
      have hne : worker 1 ≠ worker 0 := fun heq => hposter (heq ▸ hfirst)
      have hready := h.ready 10 1 [] (fun heq => absurd heq hposter)
        (by simp [postSteps, start, program, openMember, perform, dispatch, hne])
      have hslot := hready.2.2.1
      simp [program, openMember, SetupStep.assign, startFields, Function.update_apply] at hslot

theorem posted_by_worker_of_safe (h : place.Safe poster worker grouped) (c : Fin 2)
    (hopens : place.Opens c) : poster = some (worker c) := by
  cases place with
  | createConnect target =>
      obtain rfl : c = 0 := hopens
      by_contra hposter
      have hready := h.ready 3 0 [] (fun heq => absurd heq hposter)
        (by simp [postSteps, start, program, perform, dispatch])
      simp [Ready, program, SetupStep.assign, startFields] at hready
  | accept =>
      obtain rfl : c = 0 := hopens
      by_contra hposter
      have hready := h.ready 1 0 [] (fun heq => absurd heq hposter)
        (by simp [postSteps, start, program, perform, dispatch])
      simp [Ready, program, SetupStep.assign, startFields] at hready
  | processClientReadable mcId addrs => exact member_posted_by_worker h c

/-- With one address for both members, the second connection takes the entry of the first. -/
theorem distinct_of_safe (h : place.Safe poster worker grouped) : place.Distinct := by
  cases place with
  | createConnect target => trivial
  | accept => trivial
  | processClientReadable mcId addrs =>
      intro hsame
      have hworker : worker 1 = worker 0 :=
        Option.some.inj ((member_posted_by_worker h 1).symm.trans (member_posted_by_worker h 0))
      have hready := h.ready 13 0 [⟨.readHandler, 1⟩] (fun _ => by simp [program, openMember])
        (by simp [postSteps, start, program, openMember, perform, dispatch, hworker])
      have hentry := hready.2.2.1
      simp [program, openMember, SetupStep.assign, hsame] at hentry

/-- Whoever runs the set-up of a place, whatever the workers of its connections: the
events find them set up in every order exactly if each of them is an event of the very
thread that runs the set-up, and if members are told apart by their addresses. -/
theorem set_up_before_events_iff (place : Place) (poster : Option W) (worker : Fin 2 → W)
    (grouped : McId → Bool) :
    place.Safe poster worker grouped ↔
      (∀ c, place.Opens c → poster = some (worker c)) ∧ place.Distinct := by
  constructor
  · intro h
    exact ⟨posted_by_worker_of_safe h, distinct_of_safe h⟩
  · rintro ⟨hworker, hdistinct⟩
    exact safe_of_posted_by_worker hworker hdistinct

/-- Two members at different addresses. -/
def twoMembers (i : Fin 2) : EntityAddr := ⟨i.val.toUInt32, 30000⟩

/-- The set-up runs on worker 0 and both members are on worker 1. -/
def onAnotherWorker : Machine (ConnectionSetup (Fin 2)) (Act (Fin 2)) SetupStop :=
  machine (processClientReadable 7 twoMembers).program (some 0) (fun _ => 1) fun _ => false

/-- The write callback of the first member runs before its `mc_id` is set, where the
assertion of `get_mc_index` fails, and before its slot is, where it finds no index. Of the
other places, `create_connect` is unsafe with a single worker already. -/
theorem events_before_set_up :
    ¬ (processClientReadable 7 twoMembers).Safe (some 0) (fun _ => (1 : Fin 2))
      (fun _ => false) ∧
    (∃ st, onAnotherWorker.Reachable st ∧
      Runs (some 0) (fun _ => 1) st ⟨.writeCallbackHandler, 0⟩ ∧
      st.fields.getMcIndex (st.fields.mcId 0) 0 = .error .kassertConnections) ∧
    (∃ st, onAnotherWorker.Reachable st ∧
      Runs (some 0) (fun _ => 1) st ⟨.writeCallbackHandler, 0⟩ ∧
      st.fields.getMcIndex (st.fields.mcId 0) 0 = .ok kNumMulticasts) ∧
    ¬ accept.Safe (some 0) (fun _ => (1 : Fin 2)) (fun _ => false) ∧
    ¬ (createConnect (twoMembers 0)).Safe none (fun _ => (0 : Fin 1)) (fun _ => false) := by
  have hfree (st : ConnectionSetup (Fin 2)) : st.Free (some 0) 1 := fun h => absurd h (by decide)
  have hposted : onAnotherWorker.Reachable
      ((start (fun _ => false) (processClientReadable 7 twoMembers).program).postSteps
        (fun _ => 1) 4) := reachable_postSteps 4 (.start rfl)
  have htaken := hposted.next (.swap 1) ⟨hfree _, rfl⟩ rfl
  have hconnecting := htaken.next (.run 1 ⟨0, 0, true⟩) ⟨hfree _, by decide⟩ rfl
  have hconnected := hconnecting.next (.fire 0 .writable ⟨0, 1, true⟩) ⟨hfree _, rfl, rfl⟩ rfl
  have hcallback := hconnected.next (.swap 1) ⟨hfree _, rfl⟩ rfl
  -- Here the set-up goes on, to `set_mc_id`.
  have hnamed := (hcallback.next .post (nofun) rfl).next .post (nofun) rfl
  refine ⟨?_, ⟨_, hcallback, ⟨.run 1 ⟨0, 0, true⟩, ⟨hfree _, by decide⟩, rfl⟩, rfl⟩,
    ⟨_, hnamed, ⟨.run 1 ⟨0, 0, true⟩, ⟨hfree _, by decide⟩, rfl⟩, rfl⟩, ?_, ?_⟩
  · intro hsafe
    exact absurd (posted_by_worker_of_safe hsafe 0 trivial) (by decide)
  · intro hsafe
    exact absurd (posted_by_worker_of_safe hsafe 0 rfl) (by decide)
  · intro hsafe
    exact absurd (posted_by_worker_of_safe hsafe 0 rfl) (by decide)

end Place

/-- `Server::accept` sets the callbacks first: whoever runs it, they are there. -/
theorem serverAccept_callbacks_set {W : Type u} [DecidableEq W] {poster : Option W}
    {worker : Fin 2 → W} {grouped : McId → Bool} {st : ConnectionSetup W}
    (h : (ConnectionSetup.machine serverAccept poster worker grouped).Reachable st)
    {event : ConnEvent} (hruns : ConnectionSetup.Runs poster worker st event) :
    st.fields.readCallback event.conn = some .serverConnRead ∧
      st.fields.writeCallback event.conn = some .serverConnWrite := by
  obtain ⟨done, hkeeps⟩ := ConnectionSetup.keeps_of_reachable h
  obtain ⟨hposted, -⟩ := hkeeps.runs hruns
  have hdone : done = serverAccept.take done.length := by
    rw [← hkeeps.split, List.take_left]
  rw [hkeeps.fields]
  generalize done.length = n at hdone
  subst hdone
  match n with
  | 0 | 1 | 2 => simp [serverAccept, ConnectionSetup.Posted, SetupStep.posts] at hposted
  | 3 | n + 4 =>
      have hconn : event.conn = 0 := by
        simpa [serverAccept, ConnectionSetup.Posted, SetupStep.posts, eq_comm] using hposted
      simp [serverAccept, SetupStep.assign, hconn]

/-- `Daemon.openGroup`, which is the whole set-up at once, leaves both members as the
steps of the set-up leave them. -/
theorem openGroup_members {d d' : Daemon} {c c₁ c₂ : Nat} {conn : Conn} {msg : Core.CmMsg}
    {addrs : Fin 2 → EntityAddr} {grouped : McId → Bool} (hne : c₁ ≠ c₂)
    (h : d.openGroup c conn msg c₁ c₂ = .ok d') (i : Fin 2) :
    let fields := (Place.processClientReadable d.mMcId addrs).program.foldl SetupStep.assign
      (ConnectionSetup.startFields grouped)
    let member := if i = 0 then c₁ else c₂
    ∃ opened, d'.conns member = some opened ∧ opened.mcId = fields.mcId i ∧
      d'.getMcIndex opened.mcId member = .ok i ∧
      fields.getMcIndex (fields.mcId i) i = .ok i.val := by
  unfold Daemon.openGroup at h
  dsimp only at h
  split at h
  · cases h
  · simp only [Except.ok.injEq] at h
    subst h
    match i with
    | 0 => simp [Place.program, openMember, SetupStep.assign, Daemon.setConn, Daemon.setMeta,
        Daemon.setState, Daemon.getMcIndex, Fields.getMcIndex, Function.update_of_ne, hne]
    | 1 => simp [Place.program, openMember, SetupStep.assign, Daemon.setConn, Daemon.setMeta,
        Daemon.setState, Daemon.getMcIndex, Fields.getMcIndex, hne]

end RdmaCapsule.Multicast
