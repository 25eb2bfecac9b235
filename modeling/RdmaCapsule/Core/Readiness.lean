import RdmaCapsule.Core.TwoParty

/-! When the two sides may send data. A client is connected by the answer of the
server, a server by the answer of the client or by a `read`, which does not wait
for anything from the client. -/
namespace RdmaCapsule.Core

open RdmaCapsule.Foundation

namespace TwoParty

variable {t : TwoParty} {ep : Endpoint} {msg : CmMsg} {answers : Answers}

/-- A server that waits for the last message reads only when the client is ready. -/
def Patient (t : TwoParty) : Op → Prop
  | .read .server _ _ => t.server.active = true → t.server.connected = false →
      .rtr ∈ t.client.transitions
  | _ => True

structure Ready (t : TwoParty) : Prop where
  client : t.client.connected = false → t.client.posted = []
  server : t.server.connected = false → t.server.posted = []
  order : t.server.connected = true → t.client.connected = true

theorem Ready.start (h : t.Start) : t.Ready where
  client _ := h.client.posted
  server _ := h.server.posted
  order hconnected := nomatch h.server.connected.symm.trans hconnected

theorem Ready.dropMsg (h : t.Ready) (side : Side) : (t.dropMsg side).Ready := by
  cases side with
  | client => exact ⟨h.client, h.server, h.order⟩
  | server => exact ⟨h.client, h.server, h.order⟩

theorem Ready.putClient (h : t.Ready) (written : List CmMsg)
    (hconnected : t.client.connected = true → ep.connected = true)
    (hposted : ep.connected = false → ep.posted = []) : (t.put .client ep written).Ready :=
  ⟨hposted, h.server, fun hyes => hconnected (h.order hyes)⟩

theorem Ready.putServer (h : t.Ready) (written : List CmMsg)
    (hconnected : ep.connected = true → t.client.connected = true)
    (hposted : ep.connected = false → ep.posted = []) : (t.put .server ep written).Ready :=
  ⟨h.client, hposted, hconnected⟩

/-- An endpoint that stays as connected as it was, and posts only if it is. -/
theorem Ready.put (h : t.Ready) {side : Side} (written : List CmMsg)
    (hconnected : ep.connected = (t.endpoint side).connected)
    (hposted : ep.connected = false → ep.posted = (t.endpoint side).posted) :
    (t.put side ep written).Ready := by
  cases side with
  | client =>
      refine h.putClient written (fun hyes => hconnected.trans hyes) fun hnot => ?_
      exact (hposted hnot).trans (h.client (hconnected ▸ hnot))
  | server =>
      refine h.putServer written (fun hyes => h.order (hconnected ▸ hyes)) fun hnot => ?_
      exact (hposted hnot).trans (h.server (hconnected ▸ hnot))

theorem Ready.handleMsg (h : t.Ready) (hagreed : t.Agreed) {side : Side} {rest : List CmMsg}
    (hinbox : t.inbox side = msg :: rest) (hsent : answers.unsent = none)
    {result : Endpoint × List CmMsg}
    (hresult : Endpoint.Handled answers msg (t.endpoint side) result) :
    ((t.dropMsg side).put side result.1 result.2).Ready := by
  have hdrop := h.dropMsg side
  cases side with
  | client =>
      cases hresult with
      | unexpected hconnected => exact hdrop.putClient [] (fun _ => rfl) fun hnot => nomatch hnot
      | @client _ hrole ep' hsends =>
          have hnow : ep'.connected = true := by
            rw [hsends.connected, Endpoint.activated_connected]
            simp [hrole]
          rw [Endpoint.sendOrFault_of_sent hsent]
          exact hdrop.putClient _ (fun _ => hnow) fun hnot => nomatch hnow.symm.trans hnot
      | again _ hrole => exact nomatch hagreed.isClient.symm.trans hrole
      | first _ hrole => exact nomatch hagreed.isClient.symm.trans hrole
      | ack _ hrole => exact nomatch hagreed.isClient.symm.trans hrole
  | server =>
      cases hresult with
      | unexpected hconnected =>
          exact hdrop.putServer [] (fun _ => h.order hconnected) fun hnot => nomatch hnot
      | client _ hrole => exact nomatch hagreed.isServer.symm.trans hrole
      | again hconnected _ _ _ =>
          exact hdrop.putServer [] (fun hyes => nomatch hconnected.symm.trans hyes) fun _ =>
            h.server hconnected
      | first hconnected hrole _ _ =>
          rw [Endpoint.sendOrFault_of_sent hsent]
          refine hdrop.putServer _ (fun hyes => ?_) fun _ => h.server hconnected
          rw [Endpoint.activated_connected] at hyes
          simp [hconnected, hrole] at hyes
      | ack _ _ hack hsends =>
          obtain ⟨_, hclient⟩ :=
            hagreed.toServer msg (by simp [show t.toServer = _ from hinbox])
          refine hdrop.putServer [] (fun _ => hclient hack) fun hnot => ?_
          exact nomatch hsends.connected.symm.trans hnot

theorem Ready.step (h : t.Ready) (hagreed : t.Agreed) (tx : Side → Cluster) {op : Op}
    (henabled : t.Enabled op) (hpatient : t.Patient op) :
    Ends (t.step tx op) Ready fun _ => True := by
  cases op with
  | handleConnectionEstablished needSetFault answers =>
      obtain ⟨ep, written, r, hrun, _, _, hconnected, hposted, _⟩ :=
        Endpoint.handleConnectionEstablished_of_sent henabled needSetFault t.client
      simp only [TwoParty.step, hrun]
      refine h.putClient written (fun hyes => hconnected.trans hyes) fun hnot => ?_
      exact hposted.trans (h.client (hconnected ▸ hnot))
  | handleConnection side answers =>
      unfold TwoParty.step
      dsimp only
      cases hinbox : t.inbox side with
      | nil =>
          have hsame : (t.dropMsg side).endpoint side = t.endpoint side := by cases side <;> rfl
          change ((t.dropMsg side).put side (t.endpoint side) []).Ready
          rw [← hsame]
          exact (h.dropMsg side).put [] rfl fun _ => rfl
      | cons msg rest =>
          refine (Endpoint.handleConnection_ends (tx side) answers msg _).bind ?_
          intro result hresult
          exact h.handleMsg hagreed hinbox henabled.1 hresult
  | read side closed answers =>
      unfold TwoParty.step
      refine (Endpoint.read_ends (tx side) answers closed _).bind ?_
      rintro ep ⟨error, _, rfl | ⟨hrole, hactive, hconnected, hsends⟩⟩
      · exact h.put [] rfl fun _ => rfl
      · have hnow : ep.connected = true := hsends.connected
        cases side with
        | client => exact absurd (hagreed.isClient.symm.trans hrole) Bool.false_ne_true
        | server =>
            refine h.putServer [] (fun _ => ?_) fun hnot => absurd hnot (by simp [hnow])
            have hrtr : QpState.rtr ∈ t.client.transitions := hpatient hactive hconnected
            cases hclient : t.client.connected with
            | false =>
                rw [hagreed.clientNew hclient] at hrtr
                exact absurd hrtr List.not_mem_nil
            | true => rfl
  | sendChunks side chunks answers =>
      unfold TwoParty.step
      refine (Endpoint.sendChunks_ends answers chunks _).bind ?_
      rintro ⟨r, ep⟩ ⟨hsends, hsame⟩
      refine h.put [] hsends.connected fun hnot => ?_
      exact congrArg _ (hsame (hsends.connected ▸ hnot))
  | send side bl answers =>
      unfold TwoParty.step
      refine (Endpoint.send_ends (tx side) answers bl _).bind ?_
      rintro ⟨r, ep⟩ ⟨hsends, hsame⟩
      exact h.put [] hsends.connected fun hnot => hsame (hsends.connected ▸ hnot)

theorem ready_of_reachable {tx : Side → Cluster}
    (h : ((machine tx).restrict Patient).Reachable t) : t.Ready := by
  refine h.invariant (fun _ hstart => .start hstart) ?_
  intro before op after hbefore hready henabled hrun
  have hagreed := agreed_of_reachable hbefore.of_restrict
  exact (hready.step hagreed tx henabled.1 henabled.2).value hrun

/-- In every run in which the server does not read between its activation and
that of the client, neither side posts data before the queue pair of the other
has reached RTR. -/
theorem no_data_before_peer_ready (tx : Side → Cluster) (t : TwoParty)
    (h : ((machine tx).restrict Patient).Reachable t) :
    (t.client.posted ≠ [] → .rtr ∈ t.server.transitions) ∧
      (t.server.posted ≠ [] → .rtr ∈ t.client.transitions) := by
  have hagreed := agreed_of_reachable h.of_restrict
  have hready := ready_of_reachable h
  have hclient (hyes : t.client.connected = true) : .rtr ∈ t.client.transitions := by
    rw [(hagreed.client hyes).2.1.transitions]
    decide
  constructor
  · intro hposted
    have hconnected : t.client.connected = true := by
      by_contra hnot
      exact hposted (hready.client (by simpa using hnot))
    rw [(hagreed.server (hagreed.client hconnected).1).1.transitions]
    decide
  · intro hposted
    have hconnected : t.server.connected = true := by
      by_contra hnot
      exact hposted (hready.server (by simpa using hnot))
    exact hclient (hready.order hconnected)

theorem no_data_before_peer_ready_in_order :
    ∃ t, ((machine noPools).restrict Patient).Reachable t ∧ t.client.posted = [.chunk 0] ∧
      .rtr ∈ t.server.transitions := by
  have hapart : ((machine noPools).restrict Patient).Reachable apart := .start apart_start
  have hsent := hapart.next (.handleConnectionEstablished true .good) ⟨rfl, trivial⟩ rfl
  have hanswered := hsent.next (.handleConnection .server .good) ⟨⟨rfl, rfl⟩, trivial⟩ rfl
  have hconnected := hanswered.next (.handleConnection .client .good) ⟨⟨rfl, rfl⟩, trivial⟩ rfl
  have hposted := hconnected.next (.sendChunks .client [0] .good) ⟨trivial, trivial⟩ rfl
  have hready := no_data_before_peer_ready noPools _ hposted
  exact ⟨_, hposted, rfl, hready.1 (List.cons_ne_nil _ _)⟩

/-- The server reads before its answer has reached the client. -/
theorem data_posted_to_peer_in_init :
    ∃ t, (machine noPools).Reachable t ∧ t.server.posted = [.chunk 0] ∧
      t.client.transitions = [] ∧ t.client.attr.state = .init := by
  have hapart : (machine noPools).Reachable apart := .start apart_start
  have hsent := hapart.next (.handleConnectionEstablished true .good) rfl rfl
  have hanswered := hsent.next (.handleConnection .server .good) ⟨rfl, rfl⟩ rfl
  have hread := hanswered.next (.read .server false .good) trivial rfl
  have hposted := hread.next (.sendChunks .server [0] .good) trivial rfl
  exact ⟨_, hposted, rfl, rfl, rfl⟩

end TwoParty

end RdmaCapsule.Core
