import RdmaCapsule.Foundation.Machine
import RdmaCapsule.Network.Descriptors

/-! The handles that own the sockets. Closing a `ConnectedSocket` closes the object behind it and
deletes it; moving another one into it only deletes it, and then the descriptor of a
`PosixConnectedSocketImpl` stays open. -/
namespace RdmaCapsule.Network

open RdmaCapsule.Foundation RdmaCapsule.Core

namespace ConnectedSocketImpl

/-- The destructor. -/
def delete : ConnectedSocketImpl → Finset Nat → Except SocketFault (Finset Nat)
  | .posix _, table => .ok table
  | .rdma csi, table => csi.delete table

def close : ConnectedSocketImpl → Finset Nat → Except SocketFault (Finset Nat)
  | .posix fd, table => closeFd fd table
  | .rdma _, table => .ok table

/-- What the destructor leaves open when `close` has not been called. -/
def kept : ConnectedSocketImpl → List Nat
  | .posix fd => [fd]
  | .rdma _ => []

end ConnectedSocketImpl

/-- The handles of a process. `others` are its descriptors that are not of sockets. -/
structure Sockets (C S : Type) where
  table : Finset Nat
  others : List Nat
  connected : C → Option ConnectedSocketImpl
  listening : S → Option ServerSocketImpl
  /-- Open descriptors that were in a handle and are in none any more. -/
  lost : List Nat

inductive SocketOp (C S : Type) where
  | listen (sa : EntityAddr) (calls : ListenCalls) (sock : S)
  | accept (calls : AcceptCalls) (server : S) (sock : C)
  | connect (opts : ConnectOptions) (calls : ConnectCalls) (sock : C)
  | close (sock : C)
  | destroy (sock : C)
  | move (dst src : C)
  | abortAccept (sock : S)
  | destroyServer (sock : S)
  | moveServer (dst src : S)
  /-- Something else in the process opens or closes a descriptor of its own. -/
  | openOther (fd : Nat)
  | closeOther (fd : Nat)

namespace Sockets

variable {C S : Type} [DecidableEq C] [DecidableEq S]

def setConnected (s : Sockets C S) (sock : C) (csi : Option ConnectedSocketImpl) : Sockets C S :=
  { s with connected := Function.update s.connected sock csi }

def setListening (s : Sockets C S) (sock : S) (ssi : Option ServerSocketImpl) : Sockets C S :=
  { s with listening := Function.update s.listening sock ssi }

/-- `reset` of the pointer in a handle: the object is deleted and not closed. -/
def reset (s : Sockets C S) (sock : C) : Except SocketFault (Sockets C S) :=
  match s.connected sock with
  | none => .ok s
  | some csi => do
      let table ← csi.delete s.table
      pure { s.setConnected sock none with table, lost := s.lost ++ csi.kept }

/-- The move assignment of `ConnectedSocket`, from a temporary. -/
def assign (s : Sockets C S) (sock : C) (csi : Option ConnectedSocketImpl) :
    Except SocketFault (Sockets C S) := do
  let s ← s.reset sock
  pure (s.setConnected sock csi)

/-- The destructor of `ConnectedSocket`. -/
def destroy (s : Sockets C S) (sock : C) : Except SocketFault (Sockets C S) :=
  match s.connected sock with
  | none => .ok s
  | some csi => do
      let table ← csi.close s.table
      let table ← csi.delete table
      pure { s.setConnected sock none with table }

def close (s : Sockets C S) (sock : C) : Except SocketFault (Sockets C S) :=
  match s.connected sock with
  | none => .error .nullSocket
  | some _ => s.destroy sock

def move (s : Sockets C S) (dst src : C) : Except SocketFault (Sockets C S) :=
  (s.setConnected src none).assign dst (s.connected src)

def listeningFds (s : Sockets C S) (sock : S) : List Nat := (s.listening sock).toList.map (·.fd)

/-- The move assignment of `ServerSocket`. Deleting the old object closes nothing. -/
def assignServer (s : Sockets C S) (sock : S) (ssi : Option ServerSocketImpl) : Sockets C S :=
  { s.setListening sock ssi with lost := s.lost ++ s.listeningFds sock }

def moveServer (s : Sockets C S) (dst src : S) : Sockets C S :=
  (s.setListening src none).assignServer dst (s.listening src)

/-- The destructor of `ServerSocket`. -/
def destroyServer (s : Sockets C S) (sock : S) : Except SocketFault (Sockets C S) :=
  match s.listening sock with
  | none => .ok s
  | some ssi => do
      let table ← closeFd ssi.fd s.table
      pure { s.setListening sock none with table }

def abortAccept (s : Sockets C S) (sock : S) : Except SocketFault (Sockets C S) :=
  match s.listening sock with
  | none => .error .nullSocket
  | some _ => s.destroyServer sock

def listen (kind : WorkerKind) (sa : EntityAddr) (calls : ListenCalls) (s : Sockets C S)
    (sock : S) : Except SocketFault (Int × Sockets C S) := do
  let table ← WorkerKind.listenFds calls s.table
  match kind.listen sa calls none with
  | (r, none) => pure (r, { s with table })
  | (r, some ssi) => pure (r, { s with table }.assignServer sock ssi)

/-- What a call has made goes into the handle. -/
def receive (s : Sockets C S) (sock : C) (made : Connecting) :
    Except SocketFault (Int × Sockets C S) :=
  match made with
  | (r, none, table) => .ok (r, { s with table })
  | (r, some csi, table) => do
      let s ← { s with table }.assign sock csi
      pure (r, s)

def accept (kind : WorkerKind) (calls : AcceptCalls) (s : Sockets C S) (server : S) (sock : C) :
    Except SocketFault (Int × Sockets C S) :=
  match s.listening server with
  | none => .error .nullSocket
  | some _ => do
      let made ← kind.accept calls s.table
      s.receive sock made

def connect (kind : WorkerKind) (opts : ConnectOptions) (calls : ConnectCalls) (s : Sockets C S)
    (sock : C) : Except SocketFault (Int × Sockets C S) := do
  let made ← kind.connect opts calls s.table
  s.receive sock made

def openOther (s : Sockets C S) (fd : Nat) : Except SocketFault (Sockets C S) := do
  let table ← openFd fd s.table
  pure { s with table, others := fd :: s.others }

def closeOther (s : Sockets C S) (fd : Nat) : Except SocketFault (Sockets C S) := do
  let table ← closeFd fd s.table
  pure { s with table, others := s.others.erase fd }

def step (kind : WorkerKind) (s : Sockets C S) : SocketOp C S → Except SocketFault (Sockets C S)
  | .listen sa calls sock => do
      let (_, s) ← s.listen kind sa calls sock
      pure s
  | .accept calls server sock => do
      let (_, s) ← s.accept kind calls server sock
      pure s
  | .connect opts calls sock => do
      let (_, s) ← s.connect kind opts calls sock
      pure s
  | .close sock => s.close sock
  | .destroy sock => s.destroy sock
  | .move dst src => s.move dst src
  | .abortAccept sock => s.abortAccept sock
  | .destroyServer sock => s.destroyServer sock
  | .moveServer dst src => .ok (s.moveServer dst src)
  | .openOther fd => s.openOther fd
  | .closeOther fd => s.closeOther fd

/-- Others close what they have opened. -/
def Enabled (s : Sockets C S) : SocketOp C S → Prop
  | .closeOther fd => fd ∈ s.others
  | _ => True

def Start (s : Sockets C S) : Prop :=
  s.others.Nodup ∧ (∀ fd, fd ∈ s.table ↔ fd ∈ s.others) ∧ (∀ sock, s.connected sock = none) ∧
    (∀ sock, s.listening sock = none) ∧ s.lost = []

def machine (kind : WorkerKind) : Machine (Sockets C S) (SocketOp C S) SocketFault where
  start := Start
  enabled := Enabled
  step := step kind

end Sockets

/-- Where an open descriptor can be. In `hand` are those that an operation has taken out of one
handle, or has made, and not yet put into another. -/
inductive SocketPlace (C S : Type) where
  | others
  | connected (sock : C)
  | listening (sock : S)
  | lost
  | hand

/-- The next step moves a socket into a handle that has one, and the old one is not closed. -/
def SocketOp.Overwrites {C S : Type} (s : Sockets C S) : SocketOp C S → Prop
  | .listen _ _ sock => (s.listening sock).isSome
  | .accept _ _ sock | .connect _ _ sock => ∃ fd, s.connected sock = some (.posix fd)
  | .move dst src => dst ≠ src ∧ ∃ fd, s.connected dst = some (.posix fd)
  | .moveServer dst src => dst ≠ src ∧ (s.listening dst).isSome
  | _ => False

namespace Sockets

variable {C S : Type} {s s' : Sockets C S} {hand : List Nat} {sock : C}

def place (s : Sockets C S) (hand : List Nat) : SocketPlace C S → List Nat
  | .others => s.others
  | .connected sock => fdsOf (s.connected sock)
  | .listening sock => s.listeningFds sock
  | .lost => s.lost
  | .hand => hand

/-- Each open descriptor is in one place, once, and nothing else is in a place. -/
abbrev Accounted (s : Sockets C S) (hand : List Nat) : Prop :=
  Exclusive (· ∈ s.table) (s.place hand)

/-- The sockets of a handle have changed. -/
structure Assigned [DecidableEq C] (s : Sockets C S) (sock : C) (csi : Option ConnectedSocketImpl)
    (s' : Sockets C S) : Prop where
  connected : s'.connected = Function.update s.connected sock csi
  listening : s'.listening = s.listening
  lost : s'.lost = s.lost ∨ ∃ fd, s.connected sock = some (.posix fd)

/-- A call that makes a connection has run, and has returned `r`. -/
structure Received [DecidableEq C] (s : Sockets C S) (sock : C) (r : Int) (s' : Sockets C S) :
    Prop where
  accounted : s'.Accounted []
  cases : (r = 0 ∧ ∃ csi, s.Assigned sock (some csi) s') ∨
    (r < 0 ∧ s'.connected = s.connected ∧ s'.listening = s.listening ∧ s'.lost = s.lost)

theorem place_hand (s : Sockets C S) (hand hand' : List Nat) {p : SocketPlace C S}
    (h : p ≠ .hand) : s.place hand p = s.place hand' p := by
  cases p with
  | hand => exact absurd rfl h
  | _ => rfl

section

variable [DecidableEq C]

@[simp] theorem connected_setConnected (s : Sockets C S) (sock : C)
    (csi : Option ConnectedSocketImpl) : (s.setConnected sock csi).connected sock = csi :=
  Function.update_self ..

theorem place_setConnected (s : Sockets C S) (sock : C) (csi : Option ConnectedSocketImpl)
    (hand : List Nat) {p : SocketPlace C S} (h : p ≠ .connected sock) :
    (s.setConnected sock csi).place hand p = s.place hand p := by
  cases p with
  | connected sock' =>
      have hne : sock' ≠ sock := fun heq => h (congrArg _ heq)
      simp [place, setConnected, Function.update_of_ne hne]
  | _ => rfl

theorem Accounted.take (h : s.Accounted []) (sock : C) :
    (s.setConnected sock none).Accounted (fdsOf (s.connected sock)) := by
  apply h.transfer (.connected sock) .hand (fdsOf (s.connected sock)) nofun
  · simp [place, fdsOf]
  · simp [place]
  · intro p hsrc hdst
    rw [place_setConnected _ _ _ _ hsrc, place_hand s _ [] hdst]

theorem Accounted.put {csi : Option ConnectedSocketImpl} (h : s.Accounted (fdsOf csi))
    (hnone : s.connected sock = none) : (s.setConnected sock csi).Accounted [] := by
  apply h.transfer .hand (.connected sock) (fdsOf csi) nofun
  · simp [place]
  · simp [place, fdsOf, hnone]
  · intro p hsrc hdst
    rw [place_setConnected _ _ _ _ hdst, place_hand s _ (fdsOf csi) hsrc]

/-- The handle holds no descriptor any more that is closed. -/
theorem Accounted.shut {csi : ConnectedSocketImpl} (h : s.Accounted hand)
    (hsome : s.connected sock = some csi) {table : Finset Nat}
    (hgained : Gained table s.table csi.fds) :
    { s.setConnected sock none with table }.Accounted hand := by
  apply h.shed hgained (.connected sock)
  · change List.Perm _ (_ ++ (s.setConnected sock none).place hand (.connected sock))
    simp [place, fdsOf, hsome]
  · intro p hp
    exact place_setConnected s sock none hand hp

omit [DecidableEq C] in
theorem Accounted.subset {csi : ConnectedSocketImpl} (h : s.Accounted hand)
    (hsome : s.connected sock = some csi) :
    ∃ table, Gained table s.table csi.fds := by
  have hplace : s.place hand (.connected sock) = csi.fds := by
    simp [place, fdsOf, hsome]
  apply exists_gained
  · exact hplace ▸ h.nodup (.connected sock)
  · intro fd hfd
    exact h.sound (p := .connected sock) (hplace ▸ hfd)

theorem Assigned.lost_of_none {csi : Option ConnectedSocketImpl} (h : s.Assigned sock csi s')
    (hnone : s.connected sock = none) : s'.lost = s.lost := by
  rcases h.lost with hlost | ⟨fd, hfd⟩
  · exact hlost
  · rw [hnone] at hfd
    exact nomatch hfd

theorem destroy_of_none (h : s.connected sock = none) : s.destroy sock = .ok s := by
  unfold destroy
  rw [h]

theorem reset_ends (h : s.Accounted hand) (sock : C) :
    Ends (s.reset sock) (fun s' => s'.Accounted hand ∧ s.Assigned sock none s')
      SocketFault.Harmless := by
  unfold reset
  cases hsome : s.connected sock with
  | none =>
      refine ⟨h, ?_, rfl, .inl rfl⟩
      rw [← hsome, Function.update_eq_self]
  | some csi =>
      cases csi with
      | posix fd =>
          refine ⟨?_, rfl, rfl, .inr ⟨fd, hsome⟩⟩
          apply h.transfer (.connected sock) .lost [fd] nofun
          · change List.Perm _ (_ ++ (s.setConnected sock none).place hand (.connected sock))
            simp [place, fdsOf, ConnectedSocketImpl.fds, hsome]
          · exact List.perm_append_comm
          · intro p hsrc hdst
            have hsame := place_setConnected s sock none hand hsrc
            cases p with
            | lost => exact absurd rfl hdst
            | _ => exact hsame ▸ .refl _
      | rdma csi =>
          obtain ⟨table, hgained⟩ := h.subset hsome
          have hlast : Gained table s.table ([] ++ csi.fds) := hgained
          apply (RDMAConnectedSocketImpl.delete_gained hlast).bind
          intro after hafter
          have heq := hafter.eq
          subst heq
          have hshut := h.shut hsome hgained
          simp only [ConnectedSocketImpl.kept, List.append_nil]
          exact ⟨hshut, rfl, rfl, .inl rfl⟩

theorem assign_ends {csi : Option ConnectedSocketImpl} (h : s.Accounted (fdsOf csi)) (sock : C) :
    Ends (s.assign sock csi) (fun s' => s'.Accounted [] ∧ s.Assigned sock csi s')
      SocketFault.Harmless := by
  apply (reset_ends h sock).bind
  rintro s' ⟨hs', hassigned⟩
  have hnone : s'.connected sock = none := by
    rw [hassigned.connected, Function.update_self]
  refine ⟨hs'.put hnone, ?_, hassigned.listening, hassigned.lost⟩
  change Function.update s'.connected sock csi = _
  rw [hassigned.connected, Function.update_idem]

theorem destroy_ends (h : s.Accounted []) (sock : C) :
    Ends (s.destroy sock) (fun s' => s'.Accounted [] ∧ s.Assigned sock none s' ∧ s'.lost = s.lost)
      SocketFault.Harmless := by
  unfold destroy
  cases hsome : s.connected sock with
  | none =>
      refine ⟨h, ⟨?_, rfl, .inl rfl⟩, rfl⟩
      rw [← hsome, Function.update_eq_self]
  | some csi =>
      obtain ⟨table, hgained⟩ := h.subset hsome
      have hshut := h.shut hsome hgained
      cases csi with
      | posix fd =>
          apply (closeFd_opened hgained).bind
          rintro _ rfl
          exact ⟨hshut, ⟨rfl, rfl, .inl rfl⟩, rfl⟩
      | rdma csi =>
          have hlast : Gained table s.table ([] ++ csi.fds) := hgained
          apply (RDMAConnectedSocketImpl.delete_gained hlast).bind
          intro after hafter
          have heq := hafter.eq
          subst heq
          exact ⟨hshut, ⟨rfl, rfl, .inl rfl⟩, rfl⟩

theorem move_ends (h : s.Accounted []) (dst src : C) :
    Ends (s.move dst src) (fun s' => s'.Accounted [] ∧
        (s.setConnected src none).Assigned dst (s.connected src) s') SocketFault.Harmless :=
  assign_ends (h.take src) dst

theorem receive_ends {made : Connecting} (h : s.Accounted []) (hmade : made.Makes s.table)
    (sock : C) :
    Ends (s.receive sock made) (fun result => s.Received sock result.1 result.2)
      SocketFault.Harmless := by
  obtain ⟨r, csi, table⟩ := made
  obtain ⟨hgained, hcases⟩ := hmade
  have hhand : { s with table }.Accounted (fdsOf csi) := by
    apply h.gain hgained .hand
    · simp [place]
    · intro p hp
      exact place_hand s _ _ hp
  rcases hcases with ⟨hr, csi, rfl⟩ | ⟨hr, rfl⟩
  · apply (assign_ends hhand sock).bind
    rintro s' ⟨hs', hassigned⟩
    exact ⟨hs', .inl ⟨hr, csi, hassigned.connected, hassigned.listening, hassigned.lost⟩⟩
  · exact ⟨hhand, .inr ⟨hr, rfl, rfl, rfl⟩⟩

theorem connect_sockets (kind : WorkerKind) (opts : ConnectOptions) (calls : ConnectCalls)
    (h : s.Accounted []) (sock : C) :
    Ends (s.connect kind opts calls sock) (fun result => s.Received sock result.1 result.2)
      SocketFault.Harmless := by
  apply (kind.connect_ends opts calls s.table).bind
  intro made hmade
  exact receive_ends h hmade sock

theorem accept_sockets (kind : WorkerKind) (calls : AcceptCalls) (h : s.Accounted [])
    {server : S} (hserver : (s.listening server).isSome) (sock : C) :
    Ends (s.accept kind calls server sock) (fun result => s.Received sock result.1 result.2)
      SocketFault.Harmless := by
  obtain ⟨ssi, hsome⟩ := Option.isSome_iff_exists.mp hserver
  unfold accept
  rw [hsome]
  apply (kind.accept_ends calls s.table).bind
  intro made hmade
  exact receive_ends h hmade sock

theorem Received.lost_cases {r : Int} (h : s.Received sock r s') :
    s'.lost = s.lost ∨ ∃ fd, s.connected sock = some (.posix fd) := by
  rcases h.cases with ⟨-, csi, hassigned⟩ | ⟨-, -, -, hlost⟩
  · exact hassigned.lost
  · exact .inl hlost

end

section

variable [DecidableEq S] {server : S}

@[simp] theorem listeningFds_setListening (s : Sockets C S) (server : S)
    (ssi : Option ServerSocketImpl) :
    (s.setListening server ssi).listeningFds server = ssi.toList.map (·.fd) := by
  simp [listeningFds, setListening]

theorem place_setListening (s : Sockets C S) (server : S) (ssi : Option ServerSocketImpl)
    (hand : List Nat) {p : SocketPlace C S} (h : p ≠ .listening server) :
    (s.setListening server ssi).place hand p = s.place hand p := by
  cases p with
  | listening server' =>
      have hne : server' ≠ server := fun heq => h (congrArg _ heq)
      simp [place, listeningFds, setListening, Function.update_of_ne hne]
  | _ => rfl

theorem Accounted.takeServer (h : s.Accounted []) (server : S) :
    (s.setListening server none).Accounted (s.listeningFds server) := by
  apply h.transfer (.listening server) .hand (s.listeningFds server) nofun
  · simp [place]
  · simp [place]
  · intro p hsrc hdst
    rw [place_setListening _ _ _ _ hsrc, place_hand s _ [] hdst]

theorem Accounted.assignServer (ssi : Option ServerSocketImpl)
    (h : s.Accounted (ssi.toList.map (·.fd))) (server : S) :
    (s.assignServer server ssi).Accounted [] := by
  have hleft : (s.assignServer server none).Accounted (ssi.toList.map (·.fd)) := by
    apply h.transfer (.listening server) .lost (s.listeningFds server) nofun
    · change List.Perm _ (_ ++ (s.setListening server none).listeningFds server)
      simp [place]
    · exact List.perm_append_comm
    · intro p hsrc hdst
      have hsame := place_setListening s server none (ssi.toList.map (·.fd)) hsrc
      cases p with
      | lost => exact absurd rfl hdst
      | _ => exact hsame ▸ .refl _
  have heq : s.assignServer server ssi = (s.assignServer server none).setListening server ssi := by
    simp [Sockets.assignServer, setListening]
  rw [heq]
  apply hleft.transfer .hand (.listening server) (ssi.toList.map (·.fd)) nofun
  · simp [place]
  · have hnone : (s.assignServer server none).listeningFds server = [] :=
      listeningFds_setListening s server none
    simp [place, hnone]
  · intro p hsrc hdst
    rw [place_setListening _ _ _ _ hdst, place_hand _ _ (ssi.toList.map (·.fd)) hsrc]

theorem destroyServer_ends (h : s.Accounted []) (server : S) :
    Ends (s.destroyServer server)
      (fun s' => s'.Accounted [] ∧ s'.listening = Function.update s.listening server none ∧
        s'.connected = s.connected ∧ s'.lost = s.lost) SocketFault.Harmless := by
  unfold destroyServer
  cases hsome : s.listening server with
  | none =>
      refine ⟨h, ?_, rfl, rfl⟩
      rw [← hsome, Function.update_eq_self]
  | some ssi =>
      have hfds : s.listeningFds server = [ssi.fd] := by
        simp [listeningFds, hsome]
      have hfd : ssi.fd ∈ s.table := by
        apply h.sound (p := .listening server)
        change ssi.fd ∈ s.listeningFds server
        rw [hfds]
        exact List.mem_singleton_self _
      apply (closeFd_ends hfd).bind
      intro table hgained
      refine ⟨?_, rfl, rfl, rfl⟩
      apply h.shed hgained (.listening server)
      · change List.Perm _ (_ ++ (s.setListening server none).listeningFds server)
        simp [place, hfds]
      · intro p hp
        exact place_setListening s server none [] hp

/-- An empty handle holds what the call without descriptors would have put into it. -/
theorem listen_agrees {kind : WorkerKind} {sa : EntityAddr} {calls : ListenCalls} {r : Int}
    (hnone : s.listening server = none) (h : s.listen kind sa calls server = .ok (r, s')) :
    kind.listen sa calls none = (r, s'.listening server) := by
  obtain ⟨table, -, h⟩ := bind_eq_ok h
  cases hlisten : kind.listen sa calls none with
  | mk r' ssi =>
      rw [hlisten] at h
      cases ssi with
      | none =>
          cases h
          rw [← hnone]
      | some ssi =>
          cases h
          simp [Sockets.assignServer, setListening]

/-- What holds of a handle into which a call puts a listening socket. -/
theorem listen_sockets (kind : WorkerKind) (sa : EntityAddr) (calls : ListenCalls)
    (h : s.Accounted []) (server : S) :
    Ends (s.listen kind sa calls server)
      (fun result => result.2.Accounted [] ∧ result.2.connected = s.connected ∧
        ((∃ fd, result.1 = 0 ∧
            result.2.listening = Function.update s.listening server (some ⟨fd, sa⟩) ∧
            result.2.lost = s.lost ++ s.listeningFds server) ∨
          result.1 < 0 ∧ result.2 = s))
      SocketFault.Harmless := by
  unfold listen
  apply (WorkerKind.listen_ends kind sa calls none s.table).bind
  rintro table (⟨fd, hok, hgained⟩ | ⟨r, hr, herror, rfl⟩)
  · rw [hok]
    have hhand : { s with table }.Accounted [fd] := by
      apply h.gain hgained .hand
      · simp [place]
      · intro p hp
        exact place_hand s _ _ hp
    refine ⟨?_, rfl, .inl ⟨fd, rfl, rfl, rfl⟩⟩
    exact Accounted.assignServer (some ⟨fd, sa⟩) hhand server
  · rw [herror]
    exact ⟨h, rfl, .inr ⟨hr, rfl⟩⟩

end

theorem Accounted.start (h : s.Start) : s.Accounted [] := by
  obtain ⟨hnodup, htable, hconnected, hlistening, hlost⟩ := h
  have hplace : ∀ p, p ≠ .others → s.place [] p = [] := by
    intro p hp
    cases p with
    | others => exact absurd rfl hp
    | connected sock => simp [place, fdsOf, hconnected]
    | listening server => simp [place, listeningFds, hlistening]
    | lost => exact hlost
    | hand => rfl
  constructor
  · intro p
    by_cases hp : p = .others
    · subst hp
      exact hnodup
    · rw [hplace p hp]
      exact .nil
  · intro p q fd hp hq
    have hothers : ∀ {p : SocketPlace C S}, fd ∈ s.place [] p → p = .others := by
      intro p hp
      by_contra hne
      rw [hplace p hne] at hp
      exact nomatch hp
    rw [hothers hp, hothers hq]
  · intro p fd hfd
    by_cases hp : p = .others
    · subst hp
      exact (htable fd).mpr hfd
    · rw [hplace p hp] at hfd
      exact nomatch hfd
  · intro fd hfd
    exact ⟨.others, (htable fd).mp hfd⟩

theorem openOther_ends (h : s.Accounted []) (fd : Nat) :
    Ends (s.openOther fd)
      (fun s' => s'.Accounted [] ∧ s'.lost = s.lost ∧ s'.connected = s.connected ∧
        s'.listening = s.listening) SocketFault.Harmless := by
  apply (openFd_ends fd s.table).bind
  intro table hgained
  refine ⟨?_, rfl, rfl, rfl⟩
  apply h.gain hgained .others
  · exact .refl _
  · intro p hp
    cases p with
    | others => exact absurd rfl hp
    | _ => rfl

theorem closeOther_ends (h : s.Accounted []) {fd : Nat} (hfd : fd ∈ s.others) :
    Ends (s.closeOther fd)
      (fun s' => s'.Accounted [] ∧ s'.lost = s.lost ∧ s'.connected = s.connected ∧
        s'.listening = s.listening) SocketFault.Harmless := by
  apply (closeFd_ends (h.sound (p := .others) hfd)).bind
  intro table hgained
  refine ⟨?_, rfl, rfl, rfl⟩
  apply h.shed hgained .others
  · exact List.perm_cons_erase hfd
  · intro p hp
    cases p with
    | others => exact absurd rfl hp
    | _ => rfl

variable [DecidableEq C] [DecidableEq S]

theorem step_ends (kind : WorkerKind) (op : SocketOp C S) (h : s.Accounted [])
    (henabled : s.Enabled op) :
    Ends (s.step kind op)
      (fun s' => s'.Accounted [] ∧ (s'.lost = s.lost ∨ op.Overwrites s))
      (· ≠ .badDescriptor) := by
  have hdestroyed (sock : C) : Ends (s.destroy sock)
      (fun s' => s'.Accounted [] ∧ (s'.lost = s.lost ∨ op.Overwrites s))
      (· ≠ .badDescriptor) := by
    apply (destroy_ends h sock).mono
    · rintro s' ⟨hs', -, hlost⟩
      exact ⟨hs', .inl hlost⟩
    · exact fun _ h => h.ne
  have hserverDestroyed (server : S) : Ends (s.destroyServer server)
      (fun s' => s'.Accounted [] ∧ (s'.lost = s.lost ∨ op.Overwrites s))
      (· ≠ .badDescriptor) := by
    apply (destroyServer_ends h server).mono
    · rintro s' ⟨hs', -, -, hlost⟩
      exact ⟨hs', .inl hlost⟩
    · exact fun _ h => h.ne
  cases op with
  | listen sa calls server =>
      apply ends_of_harmless
      apply (listen_sockets kind sa calls h server).bind
      rintro ⟨r, s'⟩ ⟨hs', -, hcases⟩
      rcases hcases with ⟨fd, -, -, hlost⟩ | ⟨-, hsame⟩
      · refine ⟨hs', ?_⟩
        cases hsome : s.listening server with
        | none =>
            left
            simpa [listeningFds, hsome] using hlost
        | some ssi =>
            right
            simp [SocketOp.Overwrites, hsome]
      · exact ⟨hs', .inl (congrArg lost hsame)⟩
  | accept calls server sock =>
      change Ends (s.accept kind calls server sock >>= fun result => pure result.2) _ _
      cases hserver : s.listening server with
      | none =>
          unfold accept
          rw [hserver]
          exact nofun
      | some ssi =>
          apply ends_of_harmless
          apply (accept_sockets kind calls h (by simp [hserver]) sock).bind
          rintro ⟨r, s'⟩ hreceived
          exact ⟨hreceived.accounted, hreceived.lost_cases⟩
  | connect opts calls sock =>
      apply ends_of_harmless
      apply (connect_sockets kind opts calls h sock).bind
      rintro ⟨r, s'⟩ hreceived
      exact ⟨hreceived.accounted, hreceived.lost_cases⟩
  | close sock =>
      change Ends (s.close sock) _ _
      unfold close
      split
      · exact nofun
      · exact hdestroyed sock
  | destroy sock => exact hdestroyed sock
  | move dst src =>
      apply (move_ends h dst src).mono
      · rintro s' ⟨hs', hassigned⟩
        refine ⟨hs', ?_⟩
        rcases hassigned.lost with hlost | ⟨fd, hfd⟩
        · exact .inl hlost
        · right
          have hne : dst ≠ src := by
            rintro rfl
            rw [connected_setConnected] at hfd
            exact nomatch hfd
          refine ⟨hne, fd, ?_⟩
          simpa [setConnected, Function.update_of_ne hne] using hfd
      · exact fun _ h => h.ne
  | abortAccept server =>
      change Ends (s.abortAccept server) _ _
      unfold abortAccept
      split
      · exact nofun
      · exact hserverDestroyed server
  | destroyServer server => exact hserverDestroyed server
  | moveServer dst src =>
      refine ⟨(h.takeServer src).assignServer (s.listening src) dst, ?_⟩
      change s.lost ++ (s.setListening src none).listeningFds dst = s.lost ∨ _
      by_cases hsame : dst = src
      · subst hsame
        simp
      · have hfds : (s.setListening src none).listeningFds dst = s.listeningFds dst := by
          simp [listeningFds, setListening, Function.update_of_ne hsame]
        rw [hfds]
        cases hsome : s.listening dst with
        | none => simp [listeningFds, hsome]
        | some ssi =>
            right
            exact ⟨hsame, by simp [hsome]⟩
  | openOther fd =>
      apply (openOther_ends h fd).mono
      · rintro s' ⟨hs', hlost, -⟩
        exact ⟨hs', .inl hlost⟩
      · exact fun _ h => h.ne
  | closeOther fd =>
      apply (closeOther_ends h henabled).mono
      · rintro s' ⟨hs', hlost, -⟩
        exact ⟨hs', .inl hlost⟩
      · exact fun _ h => h.ne

theorem accounted_of_reachable {kind : WorkerKind} (h : (machine kind).Reachable s) :
    s.Accounted [] := by
  refine h.invariant (fun _ hfirst => Accounted.start hfirst) ?_
  intro before op after _ hbefore henabled hrun
  exact ((step_ends kind op hbefore henabled).value hrun).1

/-- Each open descriptor is of something else, in one handle, or lost; none is closed that is not
open; and one gets lost only where a handle is overwritten. -/
theorem descriptors_accounted (kind : WorkerKind) (s : Sockets C S)
    (h : (machine kind).Reachable s) :
    (∀ fd, fd ∈ s.table ↔ ∃ p, fd ∈ s.place [] p) ∧
    (∀ p, (s.place [] p).Nodup) ∧
    (∀ p q fd, fd ∈ s.place [] p → fd ∈ s.place [] q → p = q) ∧
    ∀ op, s.Enabled op → s.step kind op ≠ .error .badDescriptor ∧
      ∀ s', s.step kind op = .ok s' → s'.lost = s.lost ∨ op.Overwrites s := by
  have hs := accounted_of_reachable h
  refine ⟨?_, hs.nodup, fun _ _ _ => hs.apart, ?_⟩
  · intro fd
    constructor
    · exact hs.covers
    · rintro ⟨p, hp⟩
      exact hs.sound hp
  · intro op henabled
    have hends := step_ends kind op hs henabled
    constructor
    · intro hfault
      exact hends.fault hfault rfl
    · intro s' hrun
      exact (hends.value hrun).2

/-- A connection over TCP is made twice with one handle. -/
theorem descriptors_accounted_of_overwritten : ∃ s : Sockets Unit Unit,
    s.lost = [3] ∧ fdsOf (s.connected ()) = [4] ∧ ∀ fd, fd ∈ s.table ↔ ∃ p, fd ∈ s.place [] p := by
  have hstart : (machine (C := Unit) (S := Unit) .posix).Reachable
      ⟨{0, 1, 2}, [0, 1, 2], fun _ => none, fun _ => none, []⟩ :=
    .start ⟨by decide, by simp, fun _ => rfl, fun _ => rfl, rfl⟩
  have hfirst := hstart.next (.connect ⟨true, false⟩ ⟨.ok 3, none, none, none, none, true, none,
    none⟩ ()) trivial rfl
  have hsecond := hfirst.next (.connect ⟨true, false⟩ ⟨.ok 4, none, none, none, none, true, none,
    none⟩ ()) trivial rfl
  exact ⟨_, rfl, rfl, (descriptors_accounted .posix _ hsecond).1⟩

end Sockets

end RdmaCapsule.Network
