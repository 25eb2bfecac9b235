import Mathlib
import RdmaCapsule.Multicast.WireFormat

/-! `entity_addr_t` as the 56 bytes that `operator==` compares. The constructors leave some of them
as they find them, and `conns` is keyed by all of them. -/
namespace RdmaCapsule.Network

open RdmaCapsule.Core
open RdmaCapsule.Multicast (inetPton htons ntohs)

def afInet : UInt16 := 2
def afInet6 : UInt16 := 10
def afUnspec : UInt16 := 0

/-- `sockaddr_in`. The address and the port are in network order. -/
structure SockaddrIn where
  sinFamily : UInt16
  sinPort : UInt16
  sinAddr : UInt32
  sinZero : Vector UInt8 8
  deriving DecidableEq

/-- The union of the socket addresses: its first 16 bytes are a `sockaddr_in`, all of them are a
`sockaddr_in6`. -/
structure SockUnion where
  sin : SockaddrIn
  rest : Vector UInt8 12
  deriving DecidableEq

structure EntityAddr where
  type : UInt32
  nonce : UInt32
  u : SockUnion
  ipChar : Vector UInt8 20

def le16 (v : UInt16) : List UInt8 := [.ofNat v.toNat, .ofNat (v.toNat / 2 ^ 8)]

def le32 (v : UInt32) : List UInt8 :=
  [.ofNat v.toNat, .ofNat (v.toNat / 2 ^ 8), .ofNat (v.toNat / 2 ^ 16), .ofNat (v.toNat / 2 ^ 24)]

def SockaddrIn.memory (sin : SockaddrIn) : List UInt8 :=
  le16 sin.sinFamily ++ le16 sin.sinPort ++ le32 sin.sinAddr ++ sin.sinZero.toList

def SockaddrIn.zero : SockaddrIn := ⟨0, 0, 0, .replicate 8 0⟩

def SockUnion.zero : SockUnion := ⟨.zero, .replicate 12 0⟩

namespace EntityAddr

/-- The object in memory. There is no padding between its members. -/
def memory (addr : EntityAddr) : List UInt8 :=
  le32 addr.type ++ le32 addr.nonce ++ addr.u.sin.memory ++ addr.u.rest.toList ++
    addr.ipChar.toList

/-- `operator==`. -/
instance : BEq EntityAddr := ⟨fun a b => decide (a.memory = b.memory)⟩

def getFamily (addr : EntityAddr) : UInt16 := addr.u.sin.sinFamily

def setFamily (f : UInt16) (addr : EntityAddr) : EntityAddr :=
  { addr with u.sin.sinFamily := f }

/-- The port of a `sockaddr_in6` is where that of a `sockaddr_in` is. -/
def getPort (addr : EntityAddr) : UInt16 :=
  if addr.getFamily = afInet ∨ addr.getFamily = afInet6 then ntohs addr.u.sin.sinPort else 0

/-- `std::hash<entity_addr_t>`. -/
instance : Hashable EntityAddr :=
  ⟨fun x => (x.u.sin.sinAddr.toUInt64 <<< 16) + x.getPort.toUInt64⟩

/-- What is returned says whether the family is known. -/
def setSockaddr (sa : SockUnion) (addr : EntityAddr) : Bool × EntityAddr :=
  if sa.sin.sinFamily = afInet then (true, { addr with u := { SockUnion.zero with sin := sa.sin } })
  else if sa.sin.sinFamily = afInet6 then (true, { addr with u := sa })
  else if sa.sin.sinFamily = afUnspec then (true, { addr with u := .zero })
  else (false, addr)

/-- `found` is what stands in the local variable. A text that is no address leaves it there. -/
def setAddr (ip : List Char) (port : UInt16) (found : SockUnion) (addr : EntityAddr) :
    EntityAddr :=
  let addr := addr.setFamily afInet
  let socketAddr := { found.sin with
    sinAddr := (inetPton ip).getD found.sin.sinAddr
    sinFamily := afInet
    sinPort := htons port }
  (addr.setSockaddr { found with sin := socketAddr }).2

/-- The constructor with a type and a nonce; `found` is the memory of the object. -/
def new (type nonce : UInt32) (found : EntityAddr) : EntityAddr :=
  { found with type, nonce, u := .zero }

/-- The constructor with an address and a port. -/
def ofIp (ip : List Char) (port : UInt16) (localVar : SockUnion) (found : EntityAddr) :
    EntityAddr :=
  found.setAddr ip port localVar

end EntityAddr

/-- The ways to an address of IPv4. -/
inductive Route where
  | setAddr (type nonce : UInt32) (ip : List Char) (port : UInt16)
  | setSockaddr (type nonce : UInt32) (sa : SockUnion) (family : sa.sin.sinFamily = afInet)
  | ofIp (ip : List Char) (port : UInt16)

/-- What was in the memory of the object and of the local variable. -/
structure Found where
  object : EntityAddr
  localVar : SockUnion

def Route.build (found : Found) : Route → EntityAddr
  | .setAddr type nonce ip port =>
      (EntityAddr.new type nonce found.object).setAddr ip port found.localVar
  | .setSockaddr type nonce sa _ => ((EntityAddr.new type nonce found.object).setSockaddr sa).2
  | .ofIp ip port => .ofIp ip port found.localVar found.object

namespace EntityAddr

/-- The type, the nonce, the family, the address and the port are the same. -/
structure Agrees (a b : EntityAddr) : Prop where
  type : a.type = b.type
  nonce : a.nonce = b.nonce
  family : a.getFamily = b.getFamily
  ip : a.u.sin.sinAddr = b.u.sin.sinAddr
  port : a.getPort = b.getPort

/-- The bytes that no one sets are the same. -/
structure SameFiller (a b : EntityAddr) : Prop where
  sinZero : a.u.sin.sinZero = b.u.sin.sinZero
  ipChar : a.ipChar = b.ipChar

end EntityAddr

/-- The connections of a `Server`, by address. A pointer that is null is `none`. -/
structure Server where
  conns : Std.HashMap EntityAddr (Option Nat)

namespace Server

/-- `conns[target] = conn`. -/
def createConnect (target : EntityAddr) (conn : Nat) (s : Server) : Server :=
  ⟨s.conns.insert target (some conn)⟩

/-- `conns[dst]->`: an address that is not there is given a null pointer. -/
def connection (dst : EntityAddr) (s : Server) : Except Fault (Nat × Server) :=
  match s.conns.getD dst none with
  | some conn => .ok (conn, s)
  | none => .error .nullConnection

/-- The connection that the chunks are sent on. -/
def send (dst : EntityAddr) (s : Server) : Except Fault (Nat × Server) := s.connection dst

/-- The connection that the callback is set on. -/
def setTxcCallback (dst : EntityAddr) (s : Server) : Except Fault (Nat × Server) :=
  s.connection dst

def createConnects (made : List (EntityAddr × Nat)) (s : Server) : Server :=
  made.foldl (fun s entry => s.createConnect entry.1 entry.2) s

end Server

namespace EntityAddr

/-- Equality is agreement, equal addresses have one hash, and the connection that was made for an
address is found under an address that agrees with it. -/
structure EqualityExact (a b : EntityAddr) : Prop where
  equal : (a == b) = true ↔ a.Agrees b
  hash : (a == b) = true → hash a = hash b
  found : ∀ (s : Server) (conn : Nat) (later : List (EntityAddr × Nat)), a.Agrees b →
    (∀ entry ∈ later, ¬ entry.1.Agrees b) →
    let s' := (s.createConnect a conn).createConnects later
    s'.send b = .ok (conn, s') ∧ s'.setTxcCallback b = .ok (conn, s')

end EntityAddr

theorem le16_injective : Function.Injective le16 := by
  intro v v' h
  have hv := v.toNat_lt
  have hv' := v'.toNat_lt
  simp only [le16, List.cons.injEq, and_true, ← UInt8.toNat_inj, UInt8.toNat_ofNat'] at h
  exact UInt16.toNat_inj.mp (by omega)

theorem le32_injective : Function.Injective le32 := by
  intro v v' h
  have hv := v.toNat_lt
  have hv' := v'.toNat_lt
  simp only [le32, List.cons.injEq, and_true, ← UInt8.toNat_inj, UInt8.toNat_ofNat'] at h
  exact UInt32.toNat_inj.mp (by omega)

theorem SockaddrIn.length_memory (sin : SockaddrIn) : sin.memory.length = 16 := by
  simp [memory, le16, le32]

theorem SockaddrIn.memory_injective : Function.Injective SockaddrIn.memory := by
  intro sin sin' h
  obtain ⟨h, hzero⟩ := List.append_inj' h (by simp)
  obtain ⟨h, haddr⟩ := List.append_inj' h rfl
  obtain ⟨hfamily, hport⟩ := List.append_inj' h rfl
  cases sin
  cases sin'
  simp only [mk.injEq]
  exact ⟨le16_injective hfamily, le16_injective hport, le32_injective haddr,
    Vector.toList_inj.mp hzero⟩

namespace EntityAddr

theorem memory_injective : Function.Injective memory := by
  intro a b h
  obtain ⟨h, hip⟩ := List.append_inj' h (by simp)
  obtain ⟨h, hrest⟩ := List.append_inj' h (by simp)
  obtain ⟨h, hsin⟩ := List.append_inj' h (by simp [SockaddrIn.length_memory])
  obtain ⟨htype, hnonce⟩ := List.append_inj' h rfl
  obtain ⟨type, nonce, ⟨sin, rest⟩, ipChar⟩ := a
  obtain ⟨type', nonce', ⟨sin', rest'⟩, ipChar'⟩ := b
  cases le32_injective htype
  cases le32_injective hnonce
  cases SockaddrIn.memory_injective hsin
  cases Vector.toList_inj.mp hrest
  cases Vector.toList_inj.mp hip
  rfl

/-- `operator==` compares all that there is. -/
instance : LawfulBEq EntityAddr where
  rfl := decide_eq_true rfl
  eq_of_beq h := memory_injective (of_decide_eq_true h)

theorem length_memory (addr : EntityAddr) : addr.memory.length = 56 := by
  simp [memory, le32, SockaddrIn.length_memory]

theorem Agrees.refl (a : EntityAddr) : a.Agrees a := ⟨rfl, rfl, rfl, rfl, rfl⟩

end EntityAddr

namespace Server

variable {dst : EntityAddr} {conn : Nat}

/-- Connections to other addresses do not hide one that is there. -/
theorem createConnects_getD (later : List (EntityAddr × Nat)) (s : Server)
    (hother : ∀ entry ∈ later, entry.1 ≠ dst) :
    (s.createConnects later).conns.getD dst none = s.conns.getD dst none := by
  induction later generalizing s with
  | nil => rfl
  | cons entry later ih =>
      obtain ⟨hentry, hother⟩ := List.forall_mem_cons.mp hother
      have hrest := ih (s.createConnect entry.1 entry.2) hother
      rw [createConnects, List.foldl_cons]
      refine hrest.trans ?_
      rw [createConnect, Std.HashMap.getD_insert, if_neg (by simpa using hentry)]

theorem connection_eq (s : Server) (h : s.conns.getD dst none = some conn) :
    s.connection dst = .ok (conn, s) := by
  rw [connection, h]

theorem connection_createConnects (s : Server) (conn : Nat) (later : List (EntityAddr × Nat))
    (hother : ∀ entry ∈ later, entry.1 ≠ dst) :
    ((s.createConnect dst conn).createConnects later).connection dst =
      .ok (conn, (s.createConnect dst conn).createConnects later) := by
  refine connection_eq _ ?_
  rw [createConnects_getD later _ hother, createConnect, Std.HashMap.getD_insert_self]

end Server

/-- What the constructors set: the family, and the end of the union to zeros. -/
theorem Route.build_union (found : Found) (route : Route) :
    (route.build found).getFamily = afInet ∧ (route.build found).u.rest = .replicate 12 0 := by
  cases route with
  | setAddr type nonce ip port => exact ⟨rfl, rfl⟩
  | setSockaddr type nonce sa family =>
      unfold build EntityAddr.setSockaddr
      dsimp only
      rw [if_pos family]
      exact ⟨family, rfl⟩
  | ofIp ip port => exact ⟨rfl, rfl⟩

namespace EntityAddr

variable {a b : EntityAddr}

/-- The address and the port are what the model of the daemon knows of an address. -/
theorem setAddr_entityAddr (ip : List Char) (port : UInt16) (localVar : SockUnion)
    (addr : EntityAddr) :
    (⟨(addr.setAddr ip port localVar).u.sin.sinAddr, (addr.setAddr ip port localVar).getPort⟩ :
        Multicast.EntityAddr) =
      (Multicast.setAddr ip port localVar.sin.sinAddr).entityAddr := rfl

/-- The two ports agree where the two families are that of IPv4. -/
theorem sinPort_eq (ha : a.getFamily = afInet) (hb : b.getFamily = afInet)
    (h : a.getPort = b.getPort) : a.u.sin.sinPort = b.u.sin.sinPort := by
  rw [getPort, getPort, if_pos (.inl ha), if_pos (.inl hb)] at h
  have hback := congrArg htons h
  rwa [ntohs, ntohs, Multicast.htons_htons, Multicast.htons_htons] at hback

theorem eq_of_agrees (ha : a.getFamily = afInet) (hb : b.getFamily = afInet)
    (hrest : a.u.rest = b.u.rest) (h : a.Agrees b) (hfiller : a.SameFiller b) : a = b := by
  have hport := sinPort_eq ha hb h.port
  obtain ⟨htype, hnonce, hfamily, hip, -⟩ := h
  obtain ⟨hzero, hchar⟩ := hfiller
  obtain ⟨type, nonce, ⟨⟨sinFamily, sinPort, sinAddr, sinZero⟩, rest⟩, ipChar⟩ := a
  obtain ⟨type', nonce', ⟨⟨sinFamily', sinPort', sinAddr', sinZero'⟩, rest'⟩, ipChar'⟩ := b
  simp_all [getFamily]

/-- Two addresses of IPv4 are equal just when they agree, if and only if they do not agree or the
bytes that no one sets happen to be the same in both. -/
theorem address_equality_exact_iff (found found' : Found) (route route' : Route) :
    (route.build found).EqualityExact (route'.build found') ↔
      ((route.build found).Agrees (route'.build found') →
        (route.build found).SameFiller (route'.build found')) := by
  obtain ⟨ha, hrest⟩ := route.build_union found
  obtain ⟨hb, hrest'⟩ := route'.build_union found'
  generalize route.build found = a at ha hrest ⊢
  generalize route'.build found' = b at hb hrest' ⊢
  constructor
  · intro hexact hagrees
    cases eq_of_beq (hexact.equal.mpr hagrees)
    exact ⟨rfl, rfl⟩
  · intro hfiller
    have heq (hagrees : a.Agrees b) : a = b :=
      eq_of_agrees ha hb (hrest.trans hrest'.symm) hagrees (hfiller hagrees)
    refine ⟨⟨fun hequal => ?_, fun hagrees => ?_⟩, fun hequal => ?_, ?_⟩
    · cases eq_of_beq hequal
      exact .refl _
    · rw [heq hagrees]
      exact beq_self_eq_true b
    · rw [eq_of_beq hequal]
    · intro s conn later hagrees hother
      cases heq hagrees
      have hfound := s.connection_createConnects conn later fun entry hentry hsame =>
        hother entry hentry (hsame ▸ .refl _)
      exact ⟨hfound, hfound⟩

/-- Memory that is full of one byte. -/
def filled (byte : UInt8) : Found where
  object := ⟨0, 0, .zero, .replicate 20 byte⟩
  localVar := .zero

def replica : Route := .setAddr 0 0 "10.0.0.1".toList 30000

/-- One server address, built twice: the connection that is made for one is not found under the
other. -/
theorem address_equality_not_exact :
    (replica.build (filled 0)).Agrees (replica.build (filled 1)) ∧
      ¬ (replica.build (filled 0)).EqualityExact (replica.build (filled 1)) ∧
      ((⟨∅⟩ : Server).createConnect (replica.build (filled 0)) 7).send
        (replica.build (filled 1)) = .error .nullConnection := by
  have hagrees : (replica.build (filled 0)).Agrees (replica.build (filled 1)) :=
    ⟨rfl, rfl, rfl, rfl, rfl⟩
  have hne : replica.build (filled 0) ≠ replica.build (filled 1) := by
    intro heq
    have hchar : (Vector.replicate 20 0 : Vector UInt8 20) = .replicate 20 1 :=
      congrArg EntityAddr.ipChar heq
    exact absurd hchar (by decide)
  refine ⟨hagrees, fun hexact => hne (eq_of_beq (hexact.equal.mpr hagrees)), ?_⟩
  rw [Server.send, Server.connection, Server.createConnect, Std.HashMap.getD_insert,
    if_neg (by simpa using hne), Std.HashMap.getD_empty]

end EntityAddr

end RdmaCapsule.Network
