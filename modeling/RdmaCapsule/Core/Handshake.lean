import RdmaCapsule.Core.Endpoint

/-! What each operation of the handshake does to an endpoint, stated once. The
sends it posts on the way are left open: they concern neither the flags nor the
attributes of the queue pair. -/
namespace RdmaCapsule.Core

open RdmaCapsule.Foundation

/-- A description of a queue pair without the number it has for its peer. -/
def CmMeta.ident (cm : CmMeta) : CmMeta := { cm with peerQpn := 0 }

theorem CmMeta.ident_eq_iff {cm cm' : CmMeta} : cm.ident = cm'.ident ↔
    cm.lid = cm'.lid ∧ cm.localQpn = cm'.localQpn ∧ cm.psn = cm'.psn ∧ cm.gid = cm'.gid := by
  simp [CmMeta.ident]

namespace Endpoint

variable {tx : Cluster} {answers : Answers} {ep ep' : Endpoint} {msg : CmMsg}
  {written : List CmMsg}

/-- Nothing changes but the pending list and what has been posted. -/
def Sends (ep ep' : Endpoint) : Prop :=
  ∃ pendingBl posted, ep' = { ep with pendingBl, posted }

theorem Sends.refl (ep : Endpoint) : Sends ep ep := ⟨ep.pendingBl, ep.posted, rfl⟩

theorem Sends.trans {ep'' : Endpoint} (h : Sends ep ep') (h' : Sends ep' ep'') :
    Sends ep ep'' := by
  obtain ⟨_, _, rfl⟩ := h
  obtain ⟨pendingBl, posted, rfl⟩ := h'
  exact ⟨pendingBl, posted, rfl⟩

theorem ibvPostSend_sends (answer : Option (Nat × Nat)) (requests : List SendWr)
    (ep : Endpoint) : Sends ep (ep.ibvPostSend answer requests).2 := by
  unfold ibvPostSend
  split
  · exact ⟨_, _, rfl⟩
  · exact ⟨_, _, rfl⟩

theorem postWorkRequest_sends (answers : Answers) (txBuffers : List Nat) (ep : Endpoint) :
    Ends (ep.postWorkRequest answers txBuffers) (fun result => Sends ep result.2)
      fun _ => True := by
  unfold postWorkRequest
  split
  · trivial
  · exact ibvPostSend_sends _ _ _

theorem submit_sends (tx : Cluster) (answers : Answers) (ep : Endpoint) :
    Ends (ep.submit tx answers) (fun result => Sends ep result.2) fun _ => True := by
  unfold submit
  split
  · exact .refl ep
  · split
    · exact .refl ep
    · have hchunks : Ends (ep.pendingBl.bufferList.mapM (txChunk tx)) (fun _ => True)
          fun _ => True := ends_iff_forall.mpr fun _ _ => trivial
      refine hchunks.bind fun txBuffers _ => ?_
      refine (postWorkRequest_sends answers txBuffers ep).bind fun result hsends => ?_
      obtain ⟨_, posted, heq⟩ := hsends
      dsimp only
      split
      · exact ⟨_, posted, by rw [heq]⟩
      · exact ⟨_, posted, by rw [heq]⟩

/-- The endpoint as a successful `activate` leaves it. -/
def activated (ep : Endpoint) : Endpoint :=
  let ep := { ep with localCmMeta.peerQpn := ep.peerCmMeta.localQpn }
  let ep := ep.modifyQpToRtr.modifyQpToRts
  { ep with
    connected := ep.connected || !ep.isServer
    active := true
    peerQpn := ep.localCmMeta.peerQpn }

theorem activated_connected (ep : Endpoint) :
    ep.activated.connected = (ep.connected || !ep.isServer) := rfl

/-- A client wakes up the sends that were waiting; a server does not. -/
theorem activate_ends (tx : Cluster) (answers : Answers) (ep : Endpoint) :
    Ends (ep.activate tx answers) (fun result => result.1 = 0 →
      Sends ep.activated result.2 ∧ (ep.isServer = true → result.2 = ep.activated))
      fun _ => True := by
  unfold activate
  dsimp only
  split
  · exact fun h => nomatch h
  · split
    · exact fun h => nomatch h
    · split
      · rename_i hclient
        have hrole : ep.isServer = false := by
          simpa [modifyQpToRtr, modifyQpToRts] using hclient
        refine (submit_sends tx answers _).bind ?_
        rintro ⟨r, _⟩ ⟨pendingBl, posted, rfl⟩ _
        refine ⟨⟨pendingBl, posted, ?_⟩, fun hserver => nomatch hrole.symm.trans hserver⟩
        simp [activated, modifyQpToRtr, modifyQpToRts, hrole]
      · rename_i hserver
        have hrole : ep.isServer = true := by
          simpa [modifyQpToRtr, modifyQpToRts] using hserver
        have hsame : ep.activated = { ep.activated with connected := ep.connected } := by
          simp [activated, modifyQpToRtr, modifyQpToRts, hrole]
        intro _
        rw [hsame]
        exact ⟨.refl _, fun _ => rfl⟩

theorem mustActivate_ends (tx : Cluster) (answers : Answers) (ep : Endpoint) :
    Ends (ep.mustActivate tx answers) (fun ep' =>
      Sends ep.activated ep' ∧ (ep.isServer = true → ep' = ep.activated)) fun _ => True := by
  unfold mustActivate
  refine (activate_ends tx answers ep).bind fun result hresult => ?_
  dsimp only
  split
  · rename_i hzero
    exact hresult hzero
  · trivial

/-- The queue pair has been taken to RTS, once, for the peer that is described. -/
structure Plumbed (ep : Endpoint) (peer : CmMeta) : Prop where
  transitions : ep.transitions = [.rtr, .rts]
  state : ep.attr.state = .rts
  destQpNum : ep.attr.destQpNum = peer.localQpn
  rqPsn : ep.attr.rqPsn = peer.psn
  dgid : ep.attr.dgid = peer.gid
  dlid : ep.attr.dlid = peer.lid

theorem plumbed_activated (ep : Endpoint) (h : ep.transitions = []) :
    ep.activated.Plumbed ep.peerCmMeta := by
  refine ⟨?_, rfl, rfl, rfl, rfl, rfl⟩
  simp [activated, modifyQpToRtr, modifyQpToRts, h]

theorem Plumbed.congr {peer peer' : CmMeta} (h : ep.Plumbed peer)
    (htransitions : ep'.transitions = ep.transitions) (hattr : ep'.attr = ep.attr)
    (hpeer : peer.ident = peer'.ident) : ep'.Plumbed peer' := by
  obtain ⟨hlid, hqpn, hpsn, hgid⟩ := CmMeta.ident_eq_iff.mp hpeer
  refine ⟨htransitions.trans h.transitions, ?_, ?_, ?_, ?_, ?_⟩
  · rw [hattr, h.state]
  · rw [hattr, h.destQpNum, hqpn]
  · rw [hattr, h.rqPsn, hpsn]
  · rw [hattr, h.dgid, hgid]
  · rw [hattr, h.dlid, hlid]

/-- Two states of an endpoint between which its queue pair stays as it is. -/
structure Alike (ep ep' : Endpoint) : Prop where
  isServer : ep'.isServer = ep.isServer
  active : ep'.active = ep.active
  transitions : ep'.transitions = ep.transitions
  attr : ep'.attr = ep.attr
  localCmMeta : ep'.localCmMeta.ident = ep.localCmMeta.ident
  mcGroup : ep'.mcGroup = ep.mcGroup

theorem Sends.alike (h : Sends ep ep') : Alike ep ep' := by
  obtain ⟨_, _, rfl⟩ := h
  exact ⟨rfl, rfl, rfl, rfl, rfl, rfl⟩

theorem Sends.connected (h : Sends ep ep') : ep'.connected = ep.connected := by
  obtain ⟨_, _, rfl⟩ := h
  rfl

theorem Sends.peerCmMeta (h : Sends ep ep') : ep'.peerCmMeta = ep.peerCmMeta := by
  obtain ⟨_, _, rfl⟩ := h
  rfl

/-- Two states between which no message has been handled and no client has been
connected. -/
structure Quiet (ep ep' : Endpoint) : Prop extends Alike ep ep' where
  peerCmMeta : ep'.peerCmMeta = ep.peerCmMeta
  connected : ep.isServer = false → ep'.connected = ep.connected

theorem Quiet.refl (ep : Endpoint) : Quiet ep ep :=
  ⟨⟨rfl, rfl, rfl, rfl, rfl, rfl⟩, rfl, fun _ => rfl⟩

theorem Sends.quiet (h : Sends ep ep') : Quiet ep ep' :=
  ⟨h.alike, h.peerCmMeta, fun _ => h.connected⟩

/-- What `handle_connection` can make of a message. -/
inductive Handled (answers : Answers) (msg : CmMsg) (ep : Endpoint) :
    Endpoint × List CmMsg → Prop where
  /-- A message after the handshake. -/
  | unexpected (hconnected : ep.connected = true) :
      Handled answers msg ep (fault { ep with peerCmMeta := msg.cm }, [])
  /-- The answer of the server. -/
  | client (hconnected : ep.connected = false) (hrole : ep.isServer = false) {ep' : Endpoint}
      (hsends : Sends (activated { ep with peerCmMeta := msg.cm }) ep') :
      Handled answers msg ep (ep'.sendOrFault answers)
  | again (hconnected : ep.connected = false) (hrole : ep.isServer = true)
      (hfirst : msg.cm.peerQpn = 0) (hactive : ep.active = true) :
      Handled answers msg ep ({ ep with peerCmMeta := msg.cm }, [])
  /-- The first message of the client. -/
  | first (hconnected : ep.connected = false) (hrole : ep.isServer = true)
      (hfirst : msg.cm.peerQpn = 0) (hactive : ep.active = false) :
      Handled answers msg ep ((activated { ep with peerCmMeta := msg.cm }).sendOrFault answers)
  /-- What is taken for the answer of the client. -/
  | ack (hconnected : ep.connected = false) (hrole : ep.isServer = true)
      (hack : msg.cm.peerQpn ≠ 0) {ep' : Endpoint}
      (hsends : Sends { ep with peerCmMeta := msg.cm, connected := true } ep') :
      Handled answers msg ep (ep', [])

theorem handleConnection_ends (tx : Cluster) (answers : Answers) (msg : CmMsg) (ep : Endpoint) :
    Ends (ep.handleConnection tx answers (.message msg)) (Handled answers msg ep)
      fun _ => True := by
  unfold handleConnection
  dsimp only
  split
  · rename_i hconnected
    exact .unexpected hconnected
  · rename_i hconnected
    have hconnected : ep.connected = false := by simpa using hconnected
    split
    · rename_i hrole
      refine (mustActivate_ends tx answers _).bind fun ep' hep' => ?_
      exact .client hconnected (by simpa using hrole) hep'.1
    · rename_i hrole
      have hrole : ep.isServer = true := by simpa using hrole
      split
      · rename_i hfirst
        split
        · rename_i hactive
          exact .again hconnected hrole hfirst hactive
        · rename_i hactive
          refine (mustActivate_ends tx answers _).bind fun ep' hep' => ?_
          rw [hep'.2 hrole]
          exact .first hconnected hrole hfirst (by simpa using hactive)
      · rename_i hack
        refine (submit_sends tx answers _).bind fun result hsends => ?_
        exact .ack hconnected hrole hack hsends

/-- The first message carries no number of the peer. -/
theorem handleConnectionEstablished_of_sent (h : answers.unsent = none) (needSetFault : Bool)
    (ep : Endpoint) :
    ∃ ep' written r, ep.handleConnectionEstablished needSetFault answers = (ep', written, r) ∧
      Alike ep ep' ∧ ep'.peerCmMeta = ep.peerCmMeta ∧ ep'.connected = ep.connected ∧
      ep'.posted = ep.posted ∧
      ∀ msg ∈ written, msg = ⟨{ ep.localCmMeta with peerQpn := 0 }, ep.mcGroup⟩ := by
  unfold handleConnectionEstablished
  split
  · rename_i hconnected
    refine ⟨_, _, _, rfl, ?_, ?_, ?_, ?_, by simp⟩
    · split <;> exact ⟨rfl, rfl, rfl, rfl, rfl, rfl⟩
    · split <;> rfl
    · split
      · exact hconnected.symm
      · rfl
    · split <;> rfl
  · rw [h]
    refine ⟨_, _, _, rfl, ⟨rfl, rfl, rfl, rfl, rfl, rfl⟩, rfl, rfl, rfl, ?_⟩
    intro msg hmsg
    exact List.mem_singleton.mp hmsg

theorem sendOrFault_of_sent (h : answers.unsent = none) (ep : Endpoint) :
    ep.sendOrFault answers = (ep, [ep.cmMsg]) := by
  simp [sendOrFault, h]

theorem sendOrFault_alike (answers : Answers) (ep : Endpoint) :
    ep.Alike (ep.sendOrFault answers).1 := by
  unfold sendOrFault
  split <;> exact ⟨rfl, rfl, rfl, rfl, rfl, rfl⟩

/-- `read` makes a server connected that is active, whatever it has read. -/
theorem read_ends (tx : Cluster) (answers : Answers) (closed : Bool) (ep : Endpoint) :
    Ends (ep.read tx answers closed) (fun ep' => ∃ error, (ep.error ≠ 0 → error ≠ 0) ∧
      (ep' = { ep with error } ∨
        ep.isServer = true ∧ ep.active = true ∧ ep.connected = false ∧
          Sends { ep with error, connected := true, readHandler := false } ep'))
      fun _ => True := by
  unfold read
  split
  · rename_i hreads
    have hclosed : ∃ error, (if closed = true then ep.gotRemoteClose else ep) = { ep with error } ∧
        (ep.error ≠ 0 → error ≠ 0) := by
      unfold gotRemoteClose
      split
      · split
        · exact ⟨econnreset, rfl, fun _ => by decide⟩
        · exact ⟨ep.error, rfl, id⟩
      · exact ⟨ep.error, rfl, id⟩
    obtain ⟨error, heq, hkept⟩ := hclosed
    rw [heq]
    unfold afterRead
    split
    · rename_i hshort
      simp only [Bool.and_eq_true, Bool.not_eq_true'] at hshort
      refine (submit_sends tx answers _).bind fun result hsends => ?_
      simp only [readsBuffers, Bool.and_eq_true] at hreads
      exact ⟨error, hkept, .inr ⟨hshort.1, hreads.1, hshort.2, hsends⟩⟩
    · exact ⟨error, hkept, .inl rfl⟩
  · exact ⟨ep.error, id, .inl rfl⟩

theorem read_quiet (tx : Cluster) (answers : Answers) (closed : Bool) (ep : Endpoint) :
    Ends (ep.read tx answers closed) (Quiet ep) fun _ => True := by
  refine (read_ends tx answers closed ep).mono ?_ fun _ => id
  rintro ep' ⟨error, _, rfl | ⟨hrole, _, _, pendingBl, posted, rfl⟩⟩
  · exact ⟨⟨rfl, rfl, rfl, rfl, rfl, rfl⟩, rfl, fun _ => rfl⟩
  · exact ⟨⟨rfl, rfl, rfl, rfl, rfl, rfl⟩, rfl, fun hclient => nomatch hclient.symm.trans hrole⟩

/-- Chunks are posted only by a connected endpoint. -/
theorem sendChunks_ends (answers : Answers) (chunks : List Nat) (ep : Endpoint) :
    Ends (ep.sendChunks answers chunks) (fun result => Sends ep result.2 ∧
      (ep.connected = false → result.2 = ep)) fun _ => True := by
  unfold sendChunks
  split
  · exact ⟨.refl ep, fun _ => rfl⟩
  · rename_i hconnected
    refine (postWorkRequest_sends answers chunks ep).bind fun result hsends => ?_
    exact ⟨hsends, fun hnot => absurd (by simp [hnot]) hconnected⟩

theorem send_ends (tx : Cluster) (answers : Answers) (bl : BufferList) (ep : Endpoint) :
    Ends (ep.send tx answers bl) (fun result => Sends ep result.2 ∧
      (ep.connected = false → result.2.posted = ep.posted)) fun _ => True := by
  unfold send
  split
  · exact ⟨.refl ep, fun _ => rfl⟩
  · split
    · exact ⟨.refl ep, fun _ => rfl⟩
    · dsimp only
      split
      · exact ⟨⟨_, _, rfl⟩, fun _ => rfl⟩
      · rename_i hconnected
        have hconnected : ep.connected = true := by simpa using hconnected
        refine (submit_sends tx answers _).bind fun result hsends => ?_
        have hkeep : Sends ep result.2 := Sends.trans ⟨_, _, rfl⟩ hsends
        split
        · exact ⟨hkeep, fun hnot => nomatch hnot.symm.trans hconnected⟩
        · exact ⟨hkeep, fun hnot => nomatch hnot.symm.trans hconnected⟩

end Endpoint

end RdmaCapsule.Core
