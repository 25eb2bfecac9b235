import RdmaCapsule.Core.AfterClose

/-! `Connection` over a socket that it connects. `process` asks the socket
whether it is connected and takes every positive answer for an established
connection; `fault` gives such an answer too, so that whoever waits is woken. -/
namespace RdmaCapsule.Core

open RdmaCapsule.Foundation

inductive ConnectionState where
  | none
  | connecting
  | connectingRe
  | accepting
  | connectionEstablished
  | closed
  deriving DecidableEq, Repr

structure Connection where
  state : ConnectionState
  cs : Option Endpoint
  /-- The socket at each dispatch of `write_callback_handler`, oldest first. -/
  dispatched : List Endpoint

/-- How the process of a connection stops. -/
inductive ConnectionStop where
  | kassertNotConnected
  | nullSocket
  | socket (fault : Fault)
  deriving DecidableEq, Repr

namespace Endpoint

def isConnected (ep : Endpoint) : Int := if ep.connected then 1 else 0

/-- A client whose handshake is over: `activate` has run and its answer went out. -/
structure Finished (ep : Endpoint) : Prop where
  connected : ep.connected = true
  active : ep.active = true
  error : ep.error = 0

/-- A client on the way there. -/
structure Trying (ep : Endpoint) : Prop where
  isClient : ep.isServer = false
  error : ep.error = 0
  active : ep.connected = true → ep.active = true

end Endpoint

namespace Connection

variable {tx : Cluster} {c c' : Connection} {ep ep' : Endpoint} {answers : Answers}

def new : Connection := ⟨.none, none, []⟩

def connect (c : Connection) : Connection := { c with state := .connecting }

/-- `worker` is the socket that `worker->connect` makes, or nothing if it fails. A
socket that is there before is closed. -/
def process (worker : Option Endpoint) (c : Connection) : Except ConnectionStop Connection :=
  match c.state with
  | .none => .ok c
  | .closed => .ok c
  | .connecting =>
      match worker with
      | none => .ok { c with cs := none }
      | some cs =>
          if cs.isConnected ≤ 0 then .ok { c with cs := some cs, state := .connectingRe }
          else .error .kassertNotConnected
  | .connectingRe =>
      match c.cs with
      | none => .error .nullSocket
      | some cs =>
          let r := cs.isConnected
          if r < 0 then .ok c
          else if r = 0 then .ok c
          else .ok { c with
            state := .connectionEstablished
            dispatched := c.dispatched ++ [cs] }
  | .accepting =>
      match c.cs with
      | none => .error .nullSocket
      | some cs => .ok { c with
          state := .connectionEstablished
          dispatched := c.dispatched ++ [cs] }
  | .connectionEstablished => .ok c

inductive Op where
  | connect
  | process (worker : Option Endpoint)
  /-- The handshake, the dispatcher or the application at the socket. -/
  | socket (use : Endpoint.Use)

def step (tx : Cluster) (c : Connection) : Op → Except ConnectionStop Connection
  | .connect => .ok c.connect
  | .process worker => c.process worker
  | .socket use =>
      match c.cs with
      | none => .ok c
      | some cs => do
          let cs ← (cs.use tx use).mapError .socket
          pure { c with cs := some cs }

/-- `connect` is called once, the socket that it makes is a new client, and no one
closes it under the connection. The event loop lets the handshake set a fault. -/
def Enabled (c : Connection) : Op → Prop
  | .connect => c.state = .none
  | .process worker => ∀ ep, worker = some ep → ep.Initial ∧ ep.isServer = false
  | .socket (.call (.handleConnectionEstablished needSetFault) _) => needSetFault = true
  | .socket (.call .close _) => False
  | _ => True

def machine (tx : Cluster) : Machine Connection Op ConnectionStop where
  start c := c = new
  enabled := Enabled
  step := step tx

/-- No step of the handshake of this socket fails. -/
def Succeeds (ep : Endpoint) : Endpoint.Use → Prop
  | .call (.handleConnectionEstablished _) answers => ep.connected = false ∧ answers.unsent = none
  | .call (.handleConnection (.error errno)) _ => errno = eagain
  | .call (.handleConnection (.message _)) answers =>
      ep.connected = false ∧ answers.unsent = none
  | .call (.handleConnection _) _ => False
  | .call .fault _ => False
  | .read closed _ => closed = false
  | _ => True

/-- The socket fails, if it does, after `process` has seen it connected. -/
def Smooth (c : Connection) : Op → Prop
  | .socket use => ∀ ep, c.cs = some ep → c.state = .connectionEstablished ∨ Succeeds ep use
  | _ => True

/-- What a smooth run keeps. -/
structure Sound (c : Connection) : Prop where
  trying : c.state ≠ .connectionEstablished → c.dispatched = [] ∧ c.state ≠ .accepting ∧
    ∀ ep, c.cs = some ep → ep.Trying
  established : c.state = .connectionEstablished → ∃ ep, c.dispatched = [ep] ∧ ep.Finished

theorem trying_of_sends (h : ep.Trying) (hsends : Endpoint.Sends ep ep') : ep'.Trying := by
  obtain ⟨_, _, rfl⟩ := hsends
  exact ⟨h.isClient, h.error, h.active⟩

/-- The answer of the server makes a client connected and active. -/
theorem trying_of_message (h : ep.Trying) (tx : Cluster) {msg : CmMsg}
    (hconnected : ep.connected = false) (hsent : answers.unsent = none) :
    Ends (ep.handleConnection tx answers (.message msg)) (fun result => result.1.Trying)
      fun _ => True := by
  refine (Endpoint.handleConnection_ends tx answers msg ep).mono ?_ fun _ => id
  intro result hhandled
  cases hhandled with
  | unexpected hyes => exact nomatch hconnected.symm.trans hyes
  | client _ _ hsends =>
      rw [Endpoint.sendOrFault_of_sent hsent]
      apply trying_of_sends _ hsends
      exact ⟨h.isClient, h.error, fun _ => rfl⟩
  | again _ hrole => exact nomatch h.isClient.symm.trans hrole
  | first _ hrole => exact nomatch h.isClient.symm.trans hrole
  | ack _ hrole => exact nomatch h.isClient.symm.trans hrole

theorem trying_of_call (h : ep.Trying) (tx : Cluster) {call : Endpoint.Call}
    (hopen : call ≠ .close) (hsucceeds : Succeeds ep (.call call answers)) :
    Ends (ep.call tx answers call) (fun result => result.1.Trying) fun _ => True := by
  cases call with
  | handleConnectionEstablished needSetFault =>
      obtain ⟨hconnected, hsent⟩ := hsucceeds
      simp only [Endpoint.call, Endpoint.handleConnectionEstablished, hconnected, hsent,
        Bool.false_eq_true, if_false]
      exact ⟨h.isClient, h.error, fun hyes => nomatch hyes⟩
  | handleConnection recv =>
      cases recv with
      | error errno =>
          have hagain : errno = eagain := hsucceeds
          simp only [Endpoint.call, Endpoint.handleConnection, hagain, if_true]
          exact h
      | disconnected => exact hsucceeds.elim
      | badLength => exact hsucceeds.elim
      | message msg => exact trying_of_message h tx hsucceeds.1 hsucceeds.2
  | sendChunks chunks =>
      refine (Endpoint.sendChunks_ends answers chunks ep).bind fun result hsends => ?_
      exact trying_of_sends h hsends.1
  | send bl =>
      refine (Endpoint.send_ends tx answers bl ep).bind fun result hsends => ?_
      exact trying_of_sends h hsends.1
  | submit =>
      refine (Endpoint.submit_sends tx answers ep).bind fun result hsends => ?_
      exact trying_of_sends h hsends
  | close => exact absurd rfl hopen
  | fault => exact hsucceeds.elim

theorem trying_of_use (h : ep.Trying) (tx : Cluster) {use : Endpoint.Use}
    (hopen : ∀ answers, use ≠ .call .close answers) (hsucceeds : Succeeds ep use) :
    Ends (ep.use tx use) Endpoint.Trying fun _ => True := by
  cases use with
  | call call answers =>
      refine (trying_of_call h tx ?_ hsucceeds).bind fun _ htrying => htrying
      rintro rfl
      exact hopen answers rfl
  | read closed answers =>
      have hclosed : closed = false := hsucceeds
      have hread : ep.read tx answers closed = .ok ep := by
        unfold Endpoint.read Endpoint.afterRead
        simp [hclosed, h.isClient]
      simp only [Endpoint.use, hread]
      exact h

theorem Sound.process (h : c.Sound) {worker : Option Endpoint}
    (hworker : ∀ ep, worker = some ep → ep.Initial ∧ ep.isServer = false) :
    Ends (c.process worker) Sound fun _ => True := by
  unfold Connection.process
  cases hstate : c.state with
  | none => exact h
  | closed => exact h
  | connecting =>
      have htrying := h.trying (by simp [hstate])
      cases worker with
      | none =>
          dsimp only
          refine ⟨fun _ => ⟨htrying.1, by simp, ?_⟩, fun hyes => nomatch hyes⟩
          intro ep hep
          exact nomatch hep
      | some cs =>
          obtain ⟨hinitial, hclient⟩ := hworker cs rfl
          dsimp only
          split
          · refine ⟨fun _ => ⟨htrying.1, by simp, ?_⟩, fun hyes => nomatch hyes⟩
            intro ep hep
            cases hep
            exact ⟨hclient, hinitial.error, fun hyes => nomatch hinitial.connected.symm.trans hyes⟩
          · trivial
  | connectingRe =>
      obtain ⟨hnone, _, htrying⟩ := h.trying (by simp [hstate])
      cases hcs : c.cs with
      | none => trivial
      | some cs =>
          have hcs' := htrying cs hcs
          dsimp only
          split
          · exact h
          · split
            · exact h
            · rename_i _ hne
              have hconnected : cs.connected = true := by
                by_contra hnot
                exact hne (if_neg hnot)
              constructor
              · intro hnot
                exact absurd rfl hnot
              · intro _
                refine ⟨cs, by simp [hnone], ?_⟩
                exact ⟨hconnected, hcs'.active hconnected, hcs'.error⟩
  | accepting => exact absurd hstate (h.trying (by simp [hstate])).2.1
  | connectionEstablished => exact h

theorem Sound.step (h : c.Sound) (tx : Cluster) {op : Op} (henabled : c.Enabled op)
    (hsmooth : c.Smooth op) : Ends (c.step tx op) Sound fun _ => True := by
  cases op with
  | connect =>
      have hstate : c.state = .none := henabled
      have htrying := h.trying (by simp [hstate])
      exact ⟨fun _ => ⟨htrying.1, by simp [connect], htrying.2.2⟩, fun hyes => nomatch hyes⟩
  | process worker => exact h.process henabled
  | socket use =>
      unfold Connection.step
      cases hcs : c.cs with
      | none => exact h
      | some cs =>
          dsimp only
          by_cases hstate : c.state = .connectionEstablished
          · have hany : Ends (cs.use tx use) (fun _ => True) fun _ => True :=
              ends_iff_forall.mpr fun _ _ => trivial
            refine (hany.mapError ConnectionStop.socket).bind fun cs' _ => ?_
            exact ⟨fun hnot => absurd hstate hnot, h.established⟩
          · obtain ⟨hnone, hrole, htrying⟩ := h.trying hstate
            have hsucceeds := (hsmooth cs hcs).resolve_left hstate
            have hopen : ∀ answers, use ≠ .call .close answers := by
              rintro answers rfl
              exact henabled
            refine ((trying_of_use (htrying cs hcs) tx hopen hsucceeds).mapError
              ConnectionStop.socket).bind fun cs' hcs' => ?_
            refine ⟨fun _ => ⟨hnone, hrole, ?_⟩, fun hyes => absurd hyes hstate⟩
            intro ep hep
            cases hep
            exact hcs'

theorem sound_of_reachable (h : ((machine tx).restrict Smooth).Reachable c) : c.Sound := by
  apply h.invariant
  · rintro first rfl
    exact ⟨fun _ => ⟨rfl, by simp [new], fun ep hep => nomatch hep⟩, fun hyes => nomatch hyes⟩
  · intro before op after _ hbefore henabled hrun
    exact (hbefore.step tx henabled.1 henabled.2).value hrun

/-- In every run in which the socket does not fail before `process` has seen it
connected, `write_callback` is dispatched at most once, with the state that says
so, and then for a socket that has finished its handshake without an error. -/
theorem established_means_established (tx : Cluster) (c : Connection)
    (h : ((machine tx).restrict Smooth).Reachable c) :
    c.dispatched.length ≤ 1 ∧
    (c.state = .connectionEstablished ↔ c.dispatched ≠ []) ∧
    ∀ ep ∈ c.dispatched, ep.Finished := by
  have hsound := sound_of_reachable h
  by_cases hstate : c.state = .connectionEstablished
  · obtain ⟨ep, hep, hfinished⟩ := hsound.established hstate
    rw [hep]
    refine ⟨by simp, by simp [hstate], ?_⟩
    intro ep' hep'
    rw [List.mem_singleton.mp hep']
    exact hfinished
  · obtain ⟨hnone, _⟩ := hsound.trying hstate
    rw [hnone]
    exact ⟨by simp, by simp [hstate], by simp⟩

theorem established_means_established_after_handshake :
    ∃ c ep, ((machine (.new 0)).restrict Smooth).Reachable c ∧
      c.state = .connectionEstablished ∧ c.dispatched = [ep] ∧ ep.Finished := by
  have hnew : ((machine (.new 0)).restrict Smooth).Reachable new := .start rfl
  have hconnecting := hnew.next .connect ⟨rfl, trivial⟩ rfl
  have hsocket := hconnecting.next (.process (some Endpoint.newClient))
    ⟨fun ep hep => by cases hep; exact ⟨Endpoint.newClient_initial, rfl⟩, trivial⟩ rfl
  have hsent := hsocket.next (.socket (.call (.handleConnectionEstablished true) .good))
    ⟨rfl, fun ep hep => by cases hep; exact .inr ⟨rfl, rfl⟩⟩ rfl
  have hanswered := hsent.next (.socket (.call (.handleConnection Endpoint.serverAnswer) .good))
    ⟨trivial, fun ep hep => by cases hep; exact .inr ⟨rfl, rfl⟩⟩ rfl
  have hestablished := hanswered.next (.process none) ⟨fun ep hep => (nomatch hep), trivial⟩ rfl
  exact ⟨_, _, hestablished, rfl, rfl,
    (established_means_established (.new 0) _ hestablished).2.2 _ List.mem_cons_self⟩

/-- The TCP socket cannot be written. -/
def unsendable : Answers := { Answers.good with unsent := some epipe }

/-- The first message could not be sent, and the connection is established. -/
theorem established_after_failed_handshake :
    ∃ c ep, (machine (.new 0)).Reachable c ∧ c.state = .connectionEstablished ∧
      c.dispatched = [ep] ∧ ep.error = econnreset ∧ ep.active = false ∧ ¬ ep.Finished := by
  have hnew : (machine (.new 0)).Reachable new := .start rfl
  have hconnecting := hnew.next .connect rfl rfl
  have hsocket := hconnecting.next (.process (some Endpoint.newClient))
    (fun ep hep => by cases hep; exact ⟨Endpoint.newClient_initial, rfl⟩) rfl
  have hfailed := hsocket.next
    (.socket (.call (.handleConnectionEstablished true) unsendable)) rfl rfl
  have hestablished := hfailed.next (.process none) (fun ep hep => nomatch hep) rfl
  refine ⟨_, _, hestablished, rfl, rfl, rfl, rfl, ?_⟩
  intro hfinished
  exact nomatch hfinished.active

end Connection

end RdmaCapsule.Core
