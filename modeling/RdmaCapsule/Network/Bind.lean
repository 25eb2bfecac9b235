import Mathlib
import RdmaCapsule.Network.EntityAddr

/-! `Processor::bind` and the two `listen`s that it calls. Both of these make a socket or leave the
one they are given as it is; the end of `bind` counts on there being one. -/
namespace RdmaCapsule.Network

/-- What the kernel gives while one `listen` runs: a descriptor, and `errno` of the calls that
fail. -/
structure ListenCalls where
  createSocket : Except ℕ+ Nat
  setNonblock : Option ℕ+
  setSocketOptions : Option ℕ+
  bind : Option ℕ+
  listen : Option ℕ+

/-- `errno` of the first call on the descriptor that fails. Both `listen`s then close it. -/
def ListenCalls.failed (calls : ListenCalls) : Option ℕ+ :=
  calls.setNonblock <|> calls.setSocketOptions <|> calls.bind <|> calls.listen

/-- The object behind a `ServerSocket`. -/
structure ServerSocketImpl where
  fd : Nat
  addr : EntityAddr

namespace PosixWorker

def listen (sa : EntityAddr) (calls : ListenCalls) (sock : Option ServerSocketImpl) :
    Int × Option ServerSocketImpl :=
  match calls.createSocket with
  | .error errno => (-errno, sock)
  | .ok listenSd =>
      match calls.failed with
      | some errno => (-errno, sock)
      | none => (0, some ⟨listenSd, sa⟩)

end PosixWorker

namespace RDMAServerSocketImpl

/-- What is returned, and `server_setup_socket`. -/
def listen (calls : ListenCalls) : Int × Option Nat :=
  match calls.createSocket with
  | .error errno => (-errno, none)
  | .ok serverSetupSocket =>
      match calls.failed with
      | some errno => (-errno, none)
      | none => (0, some serverSetupSocket)

end RDMAServerSocketImpl

namespace RDMAWorker

def listen (sa : EntityAddr) (calls : ListenCalls) (sock : Option ServerSocketImpl) :
    Int × Option ServerSocketImpl :=
  match RDMAServerSocketImpl.listen calls with
  | (r, serverSetupSocket) =>
      if r < 0 then (r, sock) else (0, serverSetupSocket.map fun fd => ⟨fd, sa⟩)

end RDMAWorker

inductive WorkerKind where
  | posix
  | rdma
  deriving DecidableEq

def WorkerKind.listen : WorkerKind → EntityAddr → ListenCalls → Option ServerSocketImpl →
    Int × Option ServerSocketImpl
  | .posix => PosixWorker.listen
  | .rdma => RDMAWorker.listen

/-- Why `bind` does not return. -/
inductive BindStop where
  | abort
  /-- `abort_accept` is called through an empty pointer. -/
  | emptyListenSocket
  deriving DecidableEq

namespace EntityAddr

def isIp (addr : EntityAddr) : Prop := addr.getFamily = afInet ∨ addr.getFamily = afInet6

instance (addr : EntityAddr) : Decidable addr.isIp := inferInstanceAs (Decidable (_ ∨ _))

def setPort (port : UInt16) (addr : EntityAddr) : Except BindStop EntityAddr :=
  if addr.isIp then .ok { addr with u.sin.sinPort := Multicast.htons port } else .error .abort

/-- The configured port is for an address that has none. -/
def ensurePort (listenPort : UInt16) (addr : EntityAddr) : Except BindStop EntityAddr :=
  if addr.getPort = 0 then addr.setPort listenPort else .ok addr

end EntityAddr

/-- The variables of `bind`, and the number of attempts that have been made. -/
structure Binding where
  r : Int
  boundAddr : EntityAddr
  listenSocket : Option ServerSocketImpl
  made : Nat

namespace Processor

/-- The loop, with the attempts that are left. -/
def bindLoop (kind : WorkerKind) (listenPort : UInt16) (attempts : Nat → ListenCalls) :
    Nat → Binding → Except BindStop Binding
  | 0, b => .ok b
  | left + 1, b => do
      let listenAddr ← b.boundAddr.ensurePort listenPort
      let (r, listenSocket) := kind.listen listenAddr (attempts b.made) b.listenSocket
      let b := ⟨r, listenAddr, listenSocket, b.made + 1⟩
      if r < 0 then bindLoop kind listenPort attempts left b
      else if r = 0 then pure b
      else bindLoop kind listenPort attempts left b

/-- Where all attempts have failed, the previous bind is cleaned up. -/
def bind (kind : WorkerKind) (bindRetryCount : UInt8) (listenPort : UInt16) (bindAddr : EntityAddr)
    (attempts : Nat → ListenCalls) : Except BindStop Binding := do
  let b ← bindLoop kind listenPort attempts bindRetryCount.toNat ⟨-1, bindAddr, none, 0⟩
  if b.r < 0 then
    match b.listenSocket with
    | none => .error .emptyListenSocket
    | some _ => pure { b with listenSocket := none }
  else pure { b with r := 0 }

end Processor

/-- The descriptor that an attempt makes, or `errno` of the call that fails. -/
def ListenCalls.outcome (calls : ListenCalls) : Except ℕ+ Nat :=
  match calls.createSocket with
  | .error errno => .error errno
  | .ok fd =>
      match calls.failed with
      | some errno => .error errno
      | none => .ok fd

/-- What the last of some attempts returns, if all of them fail. -/
def lastError (attempts : Nat → ListenCalls) : Nat → Int
  | 0 => -1
  | made + 1 =>
      match (attempts made).outcome with
      | .ok _ => 0
      | .error errno => -errno

variable {calls : ListenCalls} {kind : WorkerKind} {sa : EntityAddr}
  {sock : Option ServerSocketImpl} {fd : Nat} {errno : ℕ+}

theorem neg_errno (errno : ℕ+) : (-errno : Int) < 0 := by
  have hpos := errno.pos
  omega

theorem listen_of_ok (h : calls.outcome = .ok fd) :
    kind.listen sa calls sock = (0, some ⟨fd, sa⟩) := by
  unfold ListenCalls.outcome at h
  split at h
  · cases h
  rename_i hcreate
  split at h
  · cases h
  rename_i hfailed
  cases h
  cases kind with
  | posix => simp only [WorkerKind.listen, PosixWorker.listen, hcreate, hfailed]
  | rdma =>
      simp only [WorkerKind.listen, RDMAWorker.listen, RDMAServerSocketImpl.listen, hcreate,
        hfailed]
      rfl

theorem listen_of_error (h : calls.outcome = .error errno) :
    kind.listen sa calls sock = (-(errno : Int), sock) := by
  unfold ListenCalls.outcome at h
  split at h
  · rename_i hcreate
    cases h
    cases kind with
    | posix => simp only [WorkerKind.listen, PosixWorker.listen, hcreate]
    | rdma =>
        simp only [WorkerKind.listen, RDMAWorker.listen, RDMAServerSocketImpl.listen, hcreate]
        exact if_pos (neg_errno _)
  rename_i hcreate
  split at h
  · rename_i hfailed
    cases h
    cases kind with
    | posix => simp only [WorkerKind.listen, PosixWorker.listen, hcreate, hfailed]
    | rdma =>
        simp only [WorkerKind.listen, RDMAWorker.listen, RDMAServerSocketImpl.listen, hcreate,
          hfailed]
        exact if_pos (neg_errno _)
  · cases h

namespace Processor

variable {listenPort : UInt16} {attempts : Nat → ListenCalls} {b b' : Binding} {left : Nat}

/-- `bind` returns what the first attempt that works has made, or the error of the last one and no
socket; it stops at the first that works. -/
def BindsExactly (kind : WorkerKind) (bindRetryCount : UInt8) (listenPort : UInt16)
    (bindAddr : EntityAddr) (attempts : Nat → ListenCalls) : Prop :=
  ∃ b, bind kind bindRetryCount listenPort bindAddr attempts = .ok b ∧
    ((∃ i < bindRetryCount.toNat, ∃ fd, (attempts i).outcome = .ok fd ∧
        (∀ j < i, ∃ errno, (attempts j).outcome = .error errno) ∧
        b.r = 0 ∧ b.listenSocket = some ⟨fd, b.boundAddr⟩ ∧ b.made = i + 1) ∨
      (∀ i < bindRetryCount.toNat, ∃ errno, (attempts i).outcome = .error errno) ∧
        b.r = lastError attempts bindRetryCount.toNat ∧ b.listenSocket = none ∧
        b.made = bindRetryCount.toNat)

/-- The port of an address of IP can be set. -/
theorem ensurePort_ok (listenPort : UInt16) {addr : EntityAddr} (hip : addr.isIp) :
    ∃ addr', addr'.isIp ∧ addr.ensurePort listenPort = .ok addr' := by
  unfold EntityAddr.ensurePort
  split
  · exact ⟨{ addr with u.sin.sinPort := Multicast.htons listenPort }, hip, if_pos hip⟩
  · exact ⟨addr, hip, rfl⟩

/-- An attempt that fails leaves the socket as it was, and the loop goes on. -/
theorem bindLoop_of_error (kind : WorkerKind) (listenPort : UInt16) (left : Nat)
    (hip : b.boundAddr.isIp) (h : (attempts b.made).outcome = .error errno) :
    ∃ addr, addr.isIp ∧ bindLoop kind listenPort attempts (left + 1) b =
      bindLoop kind listenPort attempts left ⟨-errno, addr, b.listenSocket, b.made + 1⟩ := by
  obtain ⟨addr, haddr, hset⟩ := ensurePort_ok listenPort hip
  refine ⟨addr, haddr, ?_⟩
  rw [bindLoop, hset, Foundation.ok_bind, listen_of_error h]
  exact if_pos (neg_errno errno)

theorem bindLoop_of_ok (hip : b.boundAddr.isIp) (h : (attempts b.made).outcome = .ok fd) :
    ∃ addr, bindLoop kind listenPort attempts (left + 1) b =
      .ok ⟨0, addr, some ⟨fd, addr⟩, b.made + 1⟩ := by
  obtain ⟨addr, -, hset⟩ := ensurePort_ok listenPort hip
  refine ⟨addr, ?_⟩
  rw [bindLoop, hset, Foundation.ok_bind, listen_of_ok h]
  rfl

/-- The loop up to the first attempt that works. -/
theorem bindLoop_first {i : Nat} (hip : b.boundAddr.isIp) (hi : b.made ≤ i)
    (hleft : i < b.made + left) (hok : (attempts i).outcome = .ok fd)
    (hbefore : ∀ j, b.made ≤ j → j < i → ∃ errno, (attempts j).outcome = .error errno) :
    ∃ addr, bindLoop kind listenPort attempts left b = .ok ⟨0, addr, some ⟨fd, addr⟩, i + 1⟩ := by
  induction left generalizing b with
  | zero => omega
  | succ left ih =>
      by_cases hnow : b.made = i
      · subst hnow
        exact bindLoop_of_ok hip hok
      · obtain ⟨errno, herror⟩ := hbefore b.made le_rfl (by omega)
        obtain ⟨addr, haddr, hnext⟩ := bindLoop_of_error kind listenPort left hip herror
        rw [hnext]
        exact ih haddr (by simp; omega) (by simp; omega)
          fun j hj => hbefore j (by simp at hj; omega)

/-- The loop over attempts that all fail. -/
theorem bindLoop_all_fail (hip : b.boundAddr.isIp) (hnone : b.listenSocket = none) (hr : b.r < 0)
    (hfail : ∀ i, b.made ≤ i → i < b.made + left → ∃ errno, (attempts i).outcome = .error errno) :
    ∃ b', bindLoop kind listenPort attempts left b = .ok b' ∧ b'.r < 0 ∧
      b'.listenSocket = none := by
  induction left generalizing b with
  | zero => exact ⟨b, rfl, hr, hnone⟩
  | succ left ih =>
      obtain ⟨errno, herror⟩ := hfail b.made le_rfl (by omega)
      obtain ⟨addr, haddr, hnext⟩ := bindLoop_of_error kind listenPort left hip herror
      rw [hnext]
      exact ih haddr hnone (neg_errno errno) fun i hge hlt =>
        hfail i (by simp at hge; omega) (by simp at hlt; omega)

/-- Total failure: what is cleaned up is not there. -/
theorem bind_all_fail {bindRetryCount : UInt8} {bindAddr : EntityAddr} (hip : bindAddr.isIp)
    (hfail : ∀ i < bindRetryCount.toNat, ∃ errno, (attempts i).outcome = .error errno) :
    bind kind bindRetryCount listenPort bindAddr attempts = .error .emptyListenSocket := by
  have hloop : ∃ b', bindLoop kind listenPort attempts bindRetryCount.toNat
      ⟨-1, bindAddr, none, 0⟩ = .ok b' ∧ b'.r < 0 ∧ b'.listenSocket = none :=
    bindLoop_all_fail hip rfl neg_one_lt_zero fun i _ hlt => hfail i (by simpa using hlt)
  obtain ⟨b, hrun, hr, hnone⟩ := hloop
  rw [bind, hrun, Foundation.ok_bind, if_pos hr, hnone]

/-- An address that is not one of IP has no port that could be set. -/
theorem bind_not_ip (kind : WorkerKind) (bindRetryCount : UInt8) (listenPort : UInt16)
    {bindAddr : EntityAddr} (hip : ¬ bindAddr.isIp) (attempts : Nat → ListenCalls) :
    ∃ stop, bind kind bindRetryCount listenPort bindAddr attempts = .error stop := by
  unfold bind
  cases bindRetryCount.toNat with
  | zero => exact ⟨_, rfl⟩
  | succ left =>
      have hport : bindAddr.getPort = 0 := if_neg hip
      have hset : bindAddr.ensurePort listenPort = .error .abort := by
        rw [EntityAddr.ensurePort, if_pos hport, EntityAddr.setPort, if_neg hip]
      refine ⟨.abort, ?_⟩
      rw [bindLoop, hset]
      rfl

/-- The first attempt that works, if one does. -/
theorem first_ok (h : ∃ i < left, ∃ fd, (attempts i).outcome = .ok fd) :
    ∃ i < left, ∃ fd, (attempts i).outcome = .ok fd ∧
      ∀ j < i, ∃ errno, (attempts j).outcome = .error errno := by
  classical
  have hex : ∃ i, ∃ fd, (attempts i).outcome = .ok fd := h.imp fun _ hi => hi.2
  obtain ⟨i, hi, hok⟩ := h
  obtain ⟨fd, hfirst⟩ := Nat.find_spec hex
  refine ⟨Nat.find hex, (Nat.find_min' hex hok).trans_lt hi, fd, hfirst, fun j hj => ?_⟩
  cases houtcome : (attempts j).outcome with
  | ok fd' => exact absurd ⟨fd', houtcome⟩ (Nat.find_min hex hj)
  | error errno => exact ⟨errno, rfl⟩

/-- `bind` does what it should exactly when some attempt within the count works. -/
theorem bind_exact_iff (kind : WorkerKind) (bindRetryCount : UInt8) (listenPort : UInt16)
    (bindAddr : EntityAddr) (attempts : Nat → ListenCalls) :
    BindsExactly kind bindRetryCount listenPort bindAddr attempts ↔
      bindAddr.isIp ∧ ∃ i < bindRetryCount.toNat, ∃ fd, (attempts i).outcome = .ok fd := by
  constructor
  · rintro ⟨b, hrun, hcases⟩
    have hip : bindAddr.isIp := by
      by_contra hip
      obtain ⟨stop, hstop⟩ := bind_not_ip kind bindRetryCount listenPort hip attempts
      cases hstop.symm.trans hrun
    refine ⟨hip, ?_⟩
    rcases hcases with ⟨i, hi, fd, hok, -⟩ | ⟨hfail, -⟩
    · exact ⟨i, hi, fd, hok⟩
    · cases (bind_all_fail hip hfail).symm.trans hrun
  · rintro ⟨hip, hsome⟩
    obtain ⟨i, hi, fd, hok, hbefore⟩ := first_ok hsome
    have hloop : ∃ addr, bindLoop kind listenPort attempts bindRetryCount.toNat
        ⟨-1, bindAddr, none, 0⟩ = .ok ⟨0, addr, some ⟨fd, addr⟩, i + 1⟩ :=
      bindLoop_first hip (Nat.zero_le i) (by simpa using hi) hok fun j _ hj => hbefore j hj
    obtain ⟨addr, hrun⟩ := hloop
    refine ⟨⟨0, addr, some ⟨fd, addr⟩, i + 1⟩, ?_, .inl ⟨i, hi, fd, hok, hbefore, rfl, rfl, rfl⟩⟩
    rw [bind, hrun]
    rfl

/-- The address is in use. -/
def inUse : ListenCalls := ⟨.ok 3, none, none, some 98, none⟩

def anyAddr : EntityAddr :=
  ⟨0, 0, ⟨⟨afInet, 0, 0, .replicate 8 0⟩, .replicate 12 0⟩, .replicate 20 0⟩

/-- One attempt that fails, and no attempt: the socket that is cleaned up is empty. -/
theorem bind_not_exact :
    inUse.outcome = .error 98 ∧
      bind .posix 1 7000 anyAddr (fun _ => inUse) = .error .emptyListenSocket ∧
      ¬ BindsExactly .posix 1 7000 anyAddr (fun _ => inUse) ∧
      ¬ BindsExactly .rdma 0 7000 anyAddr (fun _ => inUse) := by
  refine ⟨rfl, rfl, ?_, ?_⟩
  · rintro ⟨b, hrun, -⟩
    cases hrun
  · rintro ⟨b, hrun, -⟩
    cases hrun

end Processor

end RdmaCapsule.Network
