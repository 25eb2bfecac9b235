import RdmaCapsule.Foundation.Ledger
import RdmaCapsule.Network.Bind
import RdmaCapsule.Network.ConnectProcess

/-! The descriptors that the sockets of either stack are made of, and the calls that make sockets.
Whatever fails on the way, a call keeps just the descriptors of the socket that it returns. -/
namespace RdmaCapsule.Network

open RdmaCapsule.Foundation RdmaCapsule.Core

inductive SocketFault where
  /-- The kernel gives no descriptor that is open. -/
  | descriptorInUse
  /-- `close` of a descriptor that is not open. -/
  | badDescriptor
  | nullQp
  | nullSocket
  deriving DecidableEq

/-- What a handle does not stop with, if it is not empty where it must not be. -/
def SocketFault.Harmless (fault : SocketFault) : Prop :=
  fault = .descriptorInUse ∨ fault = .nullQp

def openFd (fd : Nat) (table : Finset Nat) : Except SocketFault (Finset Nat) :=
  acquire .descriptorInUse fd table

def closeFd (fd : Nat) (table : Finset Nat) : Except SocketFault (Finset Nat) :=
  release .badDescriptor fd table

/-- `if (fd >= 0) ::close(fd)`. -/
def closeIfOpen : Option Nat → Finset Nat → Except SocketFault (Finset Nat)
  | none, table => .ok table
  | some fd, table => closeFd fd table

structure RDMAConnectedSocketImpl where
  /-- Whether there is a queue pair. -/
  qp : Bool
  notifyFd : Option Nat
  tcpFd : Option Nat

def RDMAConnectedSocketImpl.fds (csi : RDMAConnectedSocketImpl) : List Nat :=
  csi.notifyFd.toList ++ csi.tcpFd.toList

inductive ConnectedSocketImpl where
  | posix (fd : Nat)
  | rdma (csi : RDMAConnectedSocketImpl)

def ConnectedSocketImpl.fds : ConnectedSocketImpl → List Nat
  | .posix fd => [fd]
  | .rdma csi => csi.fds

/-- The descriptors of the socket in a handle. -/
def fdsOf : Option ConnectedSocketImpl → List Nat
  | none => []
  | some csi => csi.fds

/-- What the kernel and the device give while a connection is made. -/
structure ConnectCalls where
  createSocket : Except ℕ+ Nat
  setNonblock : Option ℕ+
  bind : Option ℕ+
  connect : Option ℕ+
  setSocketOptions : Option ℕ+
  createQueuePair : Bool
  eventfd : Option Nat
  sendCmMeta : Option ℕ+

/-- What they give while one is accepted. -/
structure AcceptCalls where
  accept : Except ℕ+ Nat
  setNonblock : Option ℕ+
  setSocketOptions : Option ℕ+
  createQueuePair : Bool
  eventfd : Option Nat

def AcceptCalls.failed (calls : AcceptCalls) : Option ℕ+ :=
  calls.setNonblock <|> calls.setSocketOptions

/-- `bind` is whether the client binds its socket before it connects. -/
structure ConnectOptions where
  nonblock : Bool
  bind : Bool

namespace NetHandler

def genericConnect (opts : ConnectOptions) (calls : ConnectCalls) (table : Finset Nat) :
    Except SocketFault (Except ℕ+ Nat × Finset Nat) :=
  match calls.createSocket with
  | .error errno => .ok (.error errno, table)
  | .ok s => do
      let table ← openFd s table
      match if opts.nonblock then calls.setNonblock else none with
      | some errno => do
          let table ← closeFd s table
          pure (.error errno, table)
      | none =>
          match if opts.bind then calls.bind else none with
          | some errno => do
              let table ← closeFd s table
              pure (.error errno, table)
          | none =>
              match calls.connect with
              | none => pure (.ok s, table)
              | some errno =>
                  if ((errno : Nat) = einprogress ∨ (errno : Nat) = eagain) ∧ opts.nonblock then
                    pure (.ok s, table)
                  else do
                    let table ← closeFd s table
                    pure (.error errno, table)

end NetHandler

namespace RDMAConnectedSocketImpl

/-- The constructor. There is no `notify_fd` without a queue pair. -/
def new (createQueuePair : Bool) (eventfd : Option Nat) (table : Finset Nat) :
    Except SocketFault (RDMAConnectedSocketImpl × Finset Nat) :=
  if createQueuePair then
    match eventfd with
    | none => .ok (⟨true, none, none⟩, table)
    | some fd => do
        let table ← openFd fd table
        pure (⟨true, some fd, none⟩, table)
  else .ok (⟨false, none, none⟩, table)

/-- The destructor. -/
def delete (csi : RDMAConnectedSocketImpl) (table : Finset Nat) :
    Except SocketFault (Finset Nat) := do
  let table ← closeIfOpen csi.notifyFd table
  closeIfOpen csi.tcpFd table

def tryConnect (opts : ConnectOptions) (calls : ConnectCalls) (csi : RDMAConnectedSocketImpl)
    (table : Finset Nat) : Except SocketFault (Int × RDMAConnectedSocketImpl × Finset Nat) := do
  let (tcpFd, table) ← NetHandler.genericConnect opts calls table
  match tcpFd with
  | .error errno => pure (-errno, { csi with tcpFd := none }, table)
  | .ok tcpFd =>
      match calls.setSocketOptions with
      | some errno => do
          let table ← closeFd tcpFd table
          pure (-errno, { csi with tcpFd := none }, table)
      | none =>
          let csi := { csi with tcpFd := some tcpFd }
          if opts.nonblock then pure (0, csi, table)
          else if csi.qp then
            match calls.sendCmMeta with
            | some errno => pure (-errno, csi, table)
            | none => pure (0, csi, table)
          else .error .nullQp

end RDMAConnectedSocketImpl

/-- What a call returns, the socket that it makes, and the descriptors after it. -/
abbrev Connecting := Int × Option ConnectedSocketImpl × Finset Nat

namespace PosixWorker

def connect (opts : ConnectOptions) (calls : ConnectCalls) (table : Finset Nat) :
    Except SocketFault Connecting := do
  let (sd, table) ← NetHandler.genericConnect opts calls table
  match sd with
  | .error errno => pure (-errno, none, table)
  | .ok sd => pure (0, some (.posix sd), table)

end PosixWorker

namespace RDMAWorker

def connect (opts : ConnectOptions) (calls : ConnectCalls) (table : Finset Nat) :
    Except SocketFault Connecting := do
  let (p, table) ← RDMAConnectedSocketImpl.new calls.createQueuePair calls.eventfd table
  let (r, p, table) ← p.tryConnect opts calls table
  if r < 0 then do
    let table ← p.delete table
    pure (r, none, table)
  else pure (0, some (.rdma p), table)

end RDMAWorker

namespace PosixServerSocketImpl

def accept (calls : AcceptCalls) (table : Finset Nat) : Except SocketFault Connecting :=
  match calls.accept with
  | .error errno => .ok (-errno, none, table)
  | .ok sd => do
      let table ← openFd sd table
      match calls.failed with
      | some errno => do
          let table ← closeFd sd table
          pure (-errno, none, table)
      | none => pure (0, some (.posix sd), table)

end PosixServerSocketImpl

namespace RDMAServerSocketImpl

/-- Without a queue pair the new object is not deleted; it holds no descriptor. -/
def accept (calls : AcceptCalls) (table : Finset Nat) : Except SocketFault Connecting :=
  match calls.accept with
  | .error errno => .ok (-errno, none, table)
  | .ok sd => do
      let table ← openFd sd table
      match calls.failed with
      | some errno => do
          let table ← closeFd sd table
          pure (-errno, none, table)
      | none => do
          let (server, table) ←
            RDMAConnectedSocketImpl.new calls.createQueuePair calls.eventfd table
          if server.qp then pure (0, some (.rdma { server with tcpFd := some sd }), table)
          else do
            let table ← closeFd sd table
            pure (-1, none, table)

end RDMAServerSocketImpl

namespace WorkerKind

def connect : WorkerKind → ConnectOptions → ConnectCalls → Finset Nat →
    Except SocketFault Connecting
  | .posix => PosixWorker.connect
  | .rdma => RDMAWorker.connect

def accept : WorkerKind → AcceptCalls → Finset Nat → Except SocketFault Connecting
  | .posix => PosixServerSocketImpl.accept
  | .rdma => RDMAServerSocketImpl.accept

/-- The descriptors during the `listen`s. Either closes the one that it has made if a call on it
fails. -/
def listenFds (calls : ListenCalls) (table : Finset Nat) : Except SocketFault (Finset Nat) :=
  match calls.createSocket with
  | .error _ => .ok table
  | .ok fd => do
      let table ← openFd fd table
      match calls.failed with
      | some _ => closeFd fd table
      | none => pure table

end WorkerKind

theorem SocketFault.Harmless.ne {fault : SocketFault} (h : fault.Harmless) :
    fault ≠ .badDescriptor := by
  rintro rfl
  rcases h with h | h
  · exact nomatch h
  · exact nomatch h

theorem ends_of_harmless {α : Type u} {run : Except SocketFault α} {post : α → Prop}
    (h : Ends run post SocketFault.Harmless) : Ends run post (· ≠ .badDescriptor) :=
  h.mono (fun _ hpost => hpost) fun _ hstop => hstop.ne

variable {table table' : Finset Nat} {fd : Nat} {calls : ConnectCalls} {opts : ConnectOptions}
  {csi : RDMAConnectedSocketImpl}

theorem openFd_ends (fd : Nat) (table : Finset Nat) :
    Ends (openFd fd table) (fun table' => Gained table table' [fd]) SocketFault.Harmless := by
  unfold openFd
  apply (acquire_ends SocketFault.descriptorInUse fd table).mono
  · exact fun _ h => h
  · rintro _ rfl
    exact .inl rfl

theorem closeFd_ends (h : fd ∈ table) :
    Ends (closeFd fd table) (fun table' => Gained table' table [fd]) SocketFault.Harmless := by
  unfold closeFd
  apply (release_ends SocketFault.badDescriptor h).mono
  · exact fun _ h => h
  · exact fun _ h => h.elim

/-- A descriptor that was gained last is closed again. -/
theorem closeFd_gained {got : List Nat} (h : Gained table table' (got ++ [fd])) :
    Ends (closeFd fd table') (fun after => Gained table after got) SocketFault.Harmless := by
  have hfd : fd ∈ table' := (h.mem_iff fd).mpr (.inr (by simp))
  apply (closeFd_ends hfd).mono
  · intro after hafter
    exact h.sub hafter
  · exact fun _ h => h

theorem closeFd_opened (h : Gained table table' [fd]) :
    Ends (closeFd fd table') (· = table) SocketFault.Harmless := by
  have hlast : Gained table table' ([] ++ [fd]) := h
  apply (closeFd_gained hlast).mono
  · intro after hafter
    exact hafter.eq
  · exact fun _ h => h

theorem closeIfOpen_gained {got : List Nat} {fd : Option Nat}
    (h : Gained table table' (got ++ fd.toList)) :
    Ends (closeIfOpen fd table') (fun after => Gained table after got) SocketFault.Harmless := by
  cases fd with
  | none =>
      rw [Option.toList_none, List.append_nil] at h
      exact h
  | some fd => exact closeFd_gained h

/-- What a result holds. -/
def NetHandler.gainedFds : Except ℕ+ Nat → List Nat
  | .ok fd => [fd]
  | .error _ => []

theorem NetHandler.genericConnect_ends (opts : ConnectOptions) (calls : ConnectCalls)
    (table : Finset Nat) :
    Ends (NetHandler.genericConnect opts calls table)
      (fun result => Gained table result.2 (gainedFds result.1)) SocketFault.Harmless := by
  unfold genericConnect
  cases calls.createSocket with
  | error errno => exact Gained.refl table
  | ok s =>
      apply (openFd_ends s table).bind
      intro table' hopened
      have hclose (errno : ℕ+) : Ends
          (closeFd s table' >>= fun after => pure (.error errno, after))
          (fun result => Gained table result.2 (gainedFds result.1)) SocketFault.Harmless := by
        apply (closeFd_opened hopened).bind
        rintro _ rfl
        exact Gained.refl _
      split
      · exact hclose _
      · split
        · exact hclose _
        · split
          · exact hopened
          · split
            · exact hopened
            · exact hclose _

namespace RDMAConnectedSocketImpl

/-- The constructor sets `notify_fd` and leaves `tcp_fd`. -/
theorem new_ends (createQueuePair : Bool) (eventfd : Option Nat) (table : Finset Nat) :
    Ends (new createQueuePair eventfd table)
      (fun result => Gained table result.2 result.1.notifyFd.toList ∧ result.1.tcpFd = none ∧
        (result.1.qp = false → result.1.notifyFd = none)) SocketFault.Harmless := by
  unfold new
  split
  · cases eventfd with
    | none => exact ⟨.refl table, rfl, fun _ => rfl⟩
    | some fd =>
        apply (openFd_ends fd table).bind
        intro table' hopened
        exact ⟨hopened, rfl, nofun⟩
  · exact ⟨.refl table, rfl, fun _ => rfl⟩

theorem delete_gained {got : List Nat} (h : Gained table table' (got ++ csi.fds)) :
    Ends (csi.delete table') (fun after => Gained table after got) SocketFault.Harmless := by
  have hperm : (got ++ csi.fds).Perm (got ++ csi.tcpFd.toList ++ csi.notifyFd.toList) := by
    rw [List.append_assoc]
    exact List.perm_append_comm.append_left got
  apply (closeIfOpen_gained (h.congr hperm)).bind
  intro middle hmiddle
  exact closeIfOpen_gained hmiddle

theorem tryConnect_ends (opts : ConnectOptions) (calls : ConnectCalls) {got : List Nat}
    (h : Gained table table' got) :
    Ends (csi.tryConnect opts calls table')
      (fun result => Gained table result.2.2 (got ++ result.2.1.tcpFd.toList) ∧
        result.2.1.notifyFd = csi.notifyFd) SocketFault.Harmless := by
  unfold tryConnect
  apply (NetHandler.genericConnect_ends opts calls table').bind
  rintro ⟨tcpFd, middle⟩ hmiddle
  have hgot := h.append hmiddle
  cases tcpFd with
  | error errno => exact ⟨hgot, rfl⟩
  | ok tcpFd =>
      dsimp only
      split
      · apply (closeFd_gained hgot).bind
        intro after hafter
        refine ⟨?_, rfl⟩
        simpa using hafter
      · split
        · exact ⟨hgot, rfl⟩
        · split
          · split
            · exact ⟨hgot, rfl⟩
            · exact ⟨hgot, rfl⟩
          · exact .inr rfl

end RDMAConnectedSocketImpl

/-- There is a new socket just if the call returns 0, and the descriptors are those that it has. -/
structure Connecting.Makes (table : Finset Nat) (made : Connecting) : Prop where
  gained : Gained table made.2.2 (fdsOf made.2.1)
  cases : (made.1 = 0 ∧ ∃ csi, made.2.1 = some csi) ∨ (made.1 < 0 ∧ made.2.1 = none)

theorem Connecting.Makes.nothing (table : Finset Nat) {r : Int} (hr : r < 0) :
    Makes table (r, none, table) := ⟨.refl table, .inr ⟨hr, rfl⟩⟩

namespace WorkerKind

theorem connect_ends (kind : WorkerKind) (opts : ConnectOptions) (calls : ConnectCalls)
    (table : Finset Nat) :
    Ends (kind.connect opts calls table) (Connecting.Makes table) SocketFault.Harmless := by
  cases kind with
  | posix =>
      apply (NetHandler.genericConnect_ends opts calls table).bind
      rintro ⟨sd, table'⟩ hsd
      cases sd with
      | error errno => exact ⟨hsd, .inr ⟨neg_errno errno, rfl⟩⟩
      | ok sd => exact ⟨hsd, .inl ⟨rfl, _, rfl⟩⟩
  | rdma =>
      apply (RDMAConnectedSocketImpl.new_ends calls.createQueuePair calls.eventfd table).bind
      rintro ⟨p, table'⟩ ⟨hnew, -, -⟩
      apply (RDMAConnectedSocketImpl.tryConnect_ends opts calls hnew).bind
      rintro ⟨r, p', after⟩ ⟨htry, hnotify⟩
      have hfds : Gained table after p'.fds := by
        unfold RDMAConnectedSocketImpl.fds
        rw [hnotify]
        exact htry
      dsimp only
      split
      · rename_i hr
        have hlast : Gained table after ([] ++ p'.fds) := hfds
        apply (RDMAConnectedSocketImpl.delete_gained hlast).bind
        intro closed hclosed
        exact ⟨hclosed, .inr ⟨hr, rfl⟩⟩
      · exact ⟨hfds, .inl ⟨rfl, _, rfl⟩⟩

theorem accept_ends (kind : WorkerKind) (calls : AcceptCalls) (table : Finset Nat) :
    Ends (kind.accept calls table) (Connecting.Makes table) SocketFault.Harmless := by
  have hclose {sd : Nat} {table' : Finset Nat} {r : Int} (hr : r < 0)
      (h : Gained table table' [sd]) : Ends
      (closeFd sd table' >>= fun after => pure (r, none, after)) (Connecting.Makes table)
      SocketFault.Harmless := by
    apply (closeFd_opened h).bind
    rintro _ rfl
    exact .nothing _ hr
  cases kind with
  | posix =>
      change Ends (PosixServerSocketImpl.accept calls table) _ _
      unfold PosixServerSocketImpl.accept
      cases calls.accept with
      | error errno => exact .nothing table (neg_errno errno)
      | ok sd =>
          apply (openFd_ends sd table).bind
          intro table' hopened
          split
          · exact hclose (neg_errno _) hopened
          · exact ⟨hopened, .inl ⟨rfl, _, rfl⟩⟩
  | rdma =>
      change Ends (RDMAServerSocketImpl.accept calls table) _ _
      unfold RDMAServerSocketImpl.accept
      cases calls.accept with
      | error errno => exact .nothing table (neg_errno errno)
      | ok sd =>
          apply (openFd_ends sd table).bind
          intro table' hopened
          split
          · exact hclose (neg_errno _) hopened
          · apply (RDMAConnectedSocketImpl.new_ends calls.createQueuePair calls.eventfd table').bind
            rintro ⟨server, after⟩ ⟨hnew, -, hnotify⟩
            have hgot := hopened.append hnew
            dsimp only
            split
            · exact ⟨hgot.congr List.perm_append_comm, .inl ⟨rfl, _, rfl⟩⟩
            · rename_i hqp
              rw [hnotify (Bool.eq_false_iff.mpr hqp)] at hgot
              exact hclose (by decide) hgot

/-- What a `listen` returns goes with what it does to the descriptors. -/
theorem listen_ends (kind : WorkerKind) (sa : EntityAddr) (calls : ListenCalls)
    (sock : Option ServerSocketImpl) (table : Finset Nat) :
    Ends (listenFds calls table)
      (fun table' => (∃ fd, kind.listen sa calls sock = (0, some ⟨fd, sa⟩) ∧
          Gained table table' [fd]) ∨
        ∃ r, r < 0 ∧ kind.listen sa calls sock = (r, sock) ∧ table' = table)
      SocketFault.Harmless := by
  unfold listenFds
  cases hcreate : calls.createSocket with
  | error errno =>
      have houtcome : calls.outcome = .error errno := by
        unfold ListenCalls.outcome
        rw [hcreate]
      exact .inr ⟨_, neg_errno errno, listen_of_error houtcome, rfl⟩
  | ok fd =>
      apply (openFd_ends fd table).bind
      intro table' hopened
      cases hfailed : calls.failed with
      | none =>
          have houtcome : calls.outcome = .ok fd := by
            unfold ListenCalls.outcome
            rw [hcreate, hfailed]
          exact .inl ⟨fd, listen_of_ok houtcome, hopened⟩
      | some errno =>
          have houtcome : calls.outcome = .error errno := by
            unfold ListenCalls.outcome
            rw [hcreate, hfailed]
          apply (closeFd_opened hopened).mono
          · intro after hafter
            exact .inr ⟨_, neg_errno errno, listen_of_error houtcome, hafter⟩
          · exact fun _ h => h

end WorkerKind

end RdmaCapsule.Network
