import Mathlib
import RdmaCapsule.Foundation.Text
import RdmaCapsule.Multicast.Daemon

/-! The handshake message on the wire. A queue pair and the daemon write it with
formats of their own, into a buffer for the widest one, and read it with one
format. The group identifier goes over as four words in network order, the
addresses of the members come back through dotted decimals. -/
namespace RdmaCapsule.Multicast

open RdmaCapsule.Core RdmaCapsule.Foundation.Text

/-- `TCP_MSG_LEN`, the size of the widest text and its terminator. -/
def tcpMsgLen : Nat :=
  "0000:00000000:00000000:00000000:00000000:0000:00000000:0000:00000000000000000000000000000000".length
    + 1

def ntohl (v : UInt32) : UInt32 := htonl v

def htons (v : UInt16) : UInt16 := v <<< (8 : UInt16) ||| v >>> (8 : UInt16)

def ntohs (v : UInt16) : UInt16 := htons v

/-- `*(uint32_t *)(raw + i * 4)`: the first byte is the lowest. -/
def load32 (raw : Gid) (i : Fin 4) : UInt32 :=
  .ofNat ((raw.get ⟨4 * i.val, by omega⟩).toNat +
    2 ^ 8 * (raw.get ⟨4 * i.val + 1, by omega⟩).toNat +
    2 ^ 16 * (raw.get ⟨4 * i.val + 2, by omega⟩).toNat +
    2 ^ 24 * (raw.get ⟨4 * i.val + 3, by omega⟩).toNat)

def store32 (raw : Gid) (i : Fin 4) (v : UInt32) : Gid :=
  .ofFn fun j => if j.val / 4 = i.val then .ofNat (v.toNat / 2 ^ (8 * (j.val % 4))) else raw.get j

/-- Four words, each written over the terminator of the one before. -/
def wordsToWire (raw : Gid) (wgid : List Char) : Option (List Char) :=
  (List.finRange 4).foldlM
    (fun wgid i => putStringAt (i.val * 8) (padHex 8 (htonl (load32 raw i)).toNat) wgid) wgid

/-- One round of the loop. A word that does not scan leaves `v32` as it is. -/
def wordFromWire (wgid : List Char) (state : UInt32 × Gid) (i : Fin 4) : UInt32 × Gid :=
  let tmp := ((wgid.drop (i.val * 8)).take 8).takeWhile (· != nul)
  let v32 :=
    match sscanf [.hex 32] tmp with
    | .number n :: _ => .ofNat n
    | _ => state.1
  (v32, store32 state.2 i (ntohl v32))

def wordsFromWire (wgid : List Char) (v32 : UInt32) (raw : Gid) : Gid :=
  ((List.finRange 4).foldl (wordFromWire wgid) (v32, raw)).2

/-- What stands in the local variables before they are written. -/
structure Locals where
  gid : List Char
  gid_length : gid.length = 33
  msg : List Char
  msg_length : msg.length = tcpMsgLen
  ipChar : List Char
  ipChar_length : ipChar.length = 20
  v32 : UInt32
  sAddr : UInt32
  mcGroup : McGroup

/-- The text of a message, its numbers written in the given way. -/
def handshakeText (number : Nat → Nat → List Char) (msg : CmMsg) (gid : List Char) : List Char :=
  number 4 msg.cm.lid.toNat ++ ':' :: (number 8 msg.cm.localQpn.toNat ++ ':' ::
    (number 8 msg.cm.psn.toNat ++ ':' :: (number 8 msg.cm.peerQpn.toNat ++ ':' ::
    (number 8 msg.mcGroup.ipAddrMember1.toNat ++ ':' :: (number 4 msg.mcGroup.portMember1.toNat ++ ':' ::
    (number 8 msg.mcGroup.ipAddrMember2.toNat ++ ':' :: (number 4 msg.mcGroup.portMember2.toNat ++ ':' ::
    gid)))))))

/-- `%hx:%x:%x:%x:%x:%hx:%x:%hx:%s`. -/
def handshakeFormat : List Directive :=
  [.hex 16, .char ':', .hex 32, .char ':', .hex 32, .char ':', .hex 32, .char ':', .hex 32,
    .char ':', .hex 16, .char ':', .hex 32, .char ':', .hex 16, .char ':', .string]

/-- The variable at a place of the format after the scan. -/
def scanned16 (items : List Item) (place : Nat) (old : UInt16) : UInt16 :=
  match items[place]? with
  | some (.number n) => .ofNat n
  | _ => old

def scanned32 (items : List Item) (place : Nat) (old : UInt32) : UInt32 :=
  match items[place]? with
  | some (.number n) => .ofNat n
  | _ => old

def scannedString (items : List Item) (place : Nat) (old : List Char) : Option (List Char) :=
  match items[place]? with
  | some (.string text) => putString text old
  | _ => some old

end RdmaCapsule.Multicast

namespace RdmaCapsule.Core.CmMeta

open RdmaCapsule.Foundation.Text RdmaCapsule.Multicast

def gidToWireGid (cm : CmMeta) (wgid : List Char) : Option (List Char) := wordsToWire cm.gid wgid

def wireGidToGid (wgid : List Char) (v32 : UInt32) (cm : CmMeta) : CmMeta :=
  { cm with gid := wordsFromWire wgid v32 cm.gid }

/-- What `send_cm_meta` writes to the socket. -/
def sendCmMeta (localCmMeta : CmMeta) (mcGroup : McGroup) (locals : Locals) :
    Option (List Char) := do
  let gid ← localCmMeta.gidToWireGid locals.gid
  let gid ← cString gid
  putString (handshakeText (fun _ => toHex) ⟨localCmMeta, mcGroup⟩ gid) locals.msg

/-- What `recv_cm_meta` makes of a whole message. -/
def recvCmMeta (msg : List Char) (locals : Locals) (peerCmMeta : CmMeta) : Option CmMeta := do
  let text ← cString msg
  let items := sscanf handshakeFormat text
  let gid ← scannedString items 8 locals.gid
  let peerCmMeta := { peerCmMeta with
    lid := scanned16 items 0 peerCmMeta.lid
    localQpn := scanned32 items 1 peerCmMeta.localQpn
    psn := scanned32 items 2 peerCmMeta.psn
    peerQpn := scanned32 items 3 peerCmMeta.peerQpn }
  pure (peerCmMeta.wireGidToGid gid locals.v32)

end RdmaCapsule.Core.CmMeta

namespace RdmaCapsule.Multicast

open RdmaCapsule.Core RdmaCapsule.Foundation.Text

/-- `inet_ntoa`: the bytes of the address from the lowest on. -/
def inetNtoa (sAddr : UInt32) : List Char :=
  Nat.toDigits 10 (sAddr.toNat % 256) ++ '.' :: (Nat.toDigits 10 (sAddr.toNat / 2 ^ 8 % 256) ++
    '.' :: (Nat.toDigits 10 (sAddr.toNat / 2 ^ 16 % 256) ++
    '.' :: Nat.toDigits 10 (sAddr.toNat / 2 ^ 24 % 256)))

/-- `inet_pton` in the middle of a text: the octets before the last dot, and the
one that is being read if it has a digit. -/
structure Dotted where
  done : List Nat
  octet : Option Nat
  deriving DecidableEq, Repr

/-- Octets have no leading zeros and are below 256. -/
def Dotted.next (dotted : Dotted) (c : Char) : Option Dotted :=
  if '0' ≤ c ∧ c ≤ '9' then
    let digit := c.toNat - '0'.toNat
    match dotted.octet with
    | none => if dotted.done.length = 4 then none else some { dotted with octet := some digit }
    | some octet =>
        if octet = 0 ∨ 255 < octet * 10 + digit then none
        else some { dotted with octet := some (octet * 10 + digit) }
  else if c = '.' then
    match dotted.octet with
    | none => none
    | some octet => if dotted.done.length = 3 then none else some ⟨dotted.done ++ [octet], none⟩
  else none

def inetPton (text : List Char) : Option UInt32 := do
  let dotted ← text.foldlM Dotted.next ⟨[], none⟩
  match dotted.done, dotted.octet with
  | [b₀, b₁, b₂], some b₃ => some (.ofNat (b₀ + 2 ^ 8 * b₁ + 2 ^ 16 * b₂ + 2 ^ 24 * b₃))
  | _, _ => none

/-- The part of `sockaddr_in` that an address has. -/
structure SockaddrIn where
  sinPort : UInt16
  sAddr : UInt32
  deriving DecidableEq, Repr

/-- `set_addr`; a text that is no address leaves what the variable held. -/
def setAddr (ip : List Char) (port : UInt16) (old : UInt32) : SockaddrIn :=
  ⟨htons port, (inetPton ip).getD old⟩

/-- The address and `get_port`. -/
def SockaddrIn.entityAddr (sin : SockaddrIn) : EntityAddr := ⟨sin.sAddr, ntohs sin.sinPort⟩

/-- The address of a member of a group, through its text. -/
def memberSockaddr (sAddr : UInt32) (port : UInt16) (locals : Locals) : Option SockaddrIn := do
  let ipChar ← putString (inetNtoa sAddr) locals.ipChar
  let ip ← cString ipChar
  pure (setAddr ip port locals.sAddr)

namespace McMeta

def gidToWireGid (gid : Gid) (wgid : List Char) : Option (List Char) := wordsToWire gid wgid

def wireGidToGid (wgid : List Char) (v32 : UInt32) (gid : Gid) : Gid := wordsFromWire wgid v32 gid

/-- What the daemon writes: every number has its full width. -/
def sendHandshake (msg : CmMsg) (locals : Locals) : Option (List Char) := do
  let tempGid ← gidToWireGid msg.cm.gid locals.gid
  let tempGid ← cString tempGid
  putString (handshakeText padHex msg tempGid) locals.msg

/-- The text of `send_handshake_to_server`. -/
def sendHandshakeToServer (mcCmMeta : McMeta) (i : Fin 2) (locals : Locals) :
    Option (List Char) := sendHandshake (mcCmMeta.serverMsg i) locals

/-- The text of `check_and_send_handshake_to_client`. -/
def sendHandshakeToClient (mcCmMeta : McMeta) (mcId : McId) (locals : Locals) :
    Option (List Char) := sendHandshake (mcCmMeta.clientMsg mcId) locals

/-- `sscanf` into the variables of the sender, and the items for those of the group. -/
def scanSender (msg : List Char) (locals : Locals) (mcCmMeta : McMeta) :
    Option (McMeta × List Item) := do
  let text ← cString msg
  let items := sscanf handshakeFormat text
  let tempGid ← scannedString items 8 locals.gid
  pure ({ mcCmMeta with
    senderLid := scanned16 items 0 mcCmMeta.senderLid
    senderLocalQpn := scanned32 items 1 mcCmMeta.senderLocalQpn
    senderPsn := scanned32 items 2 mcCmMeta.senderPsn
    senderPeerQpn := scanned32 items 3 mcCmMeta.senderPeerQpn
    senderGid := wireGidToGid tempGid locals.v32 mcCmMeta.senderGid }, items)

/-- `process_client_readable` on the first message of a client, with both members. -/
def scanFirst (msg : List Char) (locals : Locals) (mcCmMeta : McMeta) :
    Option (McMeta × EntityAddr × EntityAddr) := do
  let (mcCmMeta, items) ← mcCmMeta.scanSender msg locals
  let sin₁ ← memberSockaddr (scanned32 items 4 locals.mcGroup.ipAddrMember1)
    (scanned16 items 5 locals.mcGroup.portMember1) locals
  let sin₂ ← memberSockaddr (scanned32 items 6 locals.mcGroup.ipAddrMember2)
    (scanned16 items 7 locals.mcGroup.portMember2) locals
  pure (mcCmMeta, sin₁.entityAddr, sin₂.entityAddr)

/-- `process_client_readable` on a later message. -/
def scanLater (msg : List Char) (locals : Locals) (mcCmMeta : McMeta) : Option McMeta := do
  let (mcCmMeta, _) ← mcCmMeta.scanSender msg locals
  pure mcCmMeta

/-- `process_server_readable`. -/
def scanReceiver (msg : List Char) (locals : Locals) (index : Fin 2) (mcCmMeta : McMeta) :
    Option McMeta := do
  let text ← cString msg
  let items := sscanf handshakeFormat text
  let tempGid ← scannedString items 8 locals.gid
  pure { mcCmMeta with
    receiverLid := Function.update mcCmMeta.receiverLid index
      (scanned16 items 0 (mcCmMeta.receiverLid index))
    receiverLocalQpn := Function.update mcCmMeta.receiverLocalQpn index
      (scanned32 items 1 (mcCmMeta.receiverLocalQpn index))
    receiverPsn := Function.update mcCmMeta.receiverPsn index
      (scanned32 items 2 (mcCmMeta.receiverPsn index))
    receiverPeerQpn := Function.update mcCmMeta.receiverPeerQpn index
      (scanned32 items 3 (mcCmMeta.receiverPeerQpn index))
    receiverGid := Function.update mcCmMeta.receiverGid index
      (wireGidToGid tempGid locals.v32 (mcCmMeta.receiverGid index)) }

end McMeta

theorem mask_byte1 : ∀ i < 32, (0xff00#32).getLsbD i = decide (8 ≤ i ∧ i < 16) := by decide
theorem mask_byte2 : ∀ i < 32, (0xff0000#32).getLsbD i = decide (16 ≤ i ∧ i < 24) := by decide

/-- The bytes of a word change places. -/
theorem getLsbD_htonl (v : UInt32) {i : Nat} (hi : i < 32) :
    (htonl v).toBitVec.getLsbD i = v.toBitVec.getLsbD (24 - 8 * (i / 8) + i % 8) := by
  have hbit : (htonl v).toBitVec.getLsbD i =
      (!decide (i < 24) && v.toBitVec.getLsbD (i - 24) ||
        !decide (i < 8) && v.toBitVec.getLsbD (i - 8) && decide (16 ≤ i ∧ i < 24) ||
        v.toBitVec.getLsbD (8 + i) && decide (8 ≤ i ∧ i < 16) ||
        v.toBitVec.getLsbD (24 + i)) := by
    rw [← mask_byte1 i hi, ← mask_byte2 i hi]
    simp [htonl, hi, -BitVec.getLsbD_eq_getElem]
  rw [hbit]
  have hout : ∀ k, 32 ≤ k → v.toBitVec.getLsbD k = false := fun k hk =>
    BitVec.getLsbD_of_ge _ _ hk
  have hcases : i < 8 ∨ 8 ≤ i ∧ i < 16 ∨ 16 ≤ i ∧ i < 24 ∨ 24 ≤ i := by omega
  rcases hcases with h | h | h | h
  · have hplace : 24 - 8 * (i / 8) + i % 8 = 24 + i := by omega
    have h₁ : ¬ 24 ≤ i := by omega
    have h₂ : ¬ 8 ≤ i := by omega
    simp [hplace, h₁, h₂]
  · have hplace : 24 - 8 * (i / 8) + i % 8 = 8 + i := by omega
    have h₁ : ¬ 24 ≤ i := by omega
    have h₂ : ¬ 16 ≤ i := by omega
    simp [hplace, h₁, h₂, h, hout (24 + i) (by omega)]
  · have hplace : 24 - 8 * (i / 8) + i % 8 = i - 8 := by omega
    have h₁ : ¬ 24 ≤ i := by omega
    have h₂ : 8 ≤ i := by omega
    have h₃ : ¬ i < 16 := by omega
    simp [hplace, h₂, h₃, h, hout (24 + i) (by omega)]
  · have hplace : 24 - 8 * (i / 8) + i % 8 = i - 24 := by omega
    have h₁ : ¬ i < 24 := by omega
    have h₃ : ¬ i < 16 := by omega
    simp [hplace, h₁, h₃, hout (24 + i) (by omega)]

theorem htonl_htonl (v : UInt32) : htonl (htonl v) = v := by
  apply UInt32.toBitVec_inj.mp
  apply BitVec.eq_of_getLsbD_eq
  intro i hi
  rw [getLsbD_htonl _ hi, getLsbD_htonl _ (by omega)]
  congr 1
  omega

theorem htons_htons (v : UInt16) : htons (htons v) = v := by
  have hbit : ∀ (v : UInt16) (i : Nat), i < 16 → (htons v).toBitVec.getLsbD i =
      v.toBitVec.getLsbD (if i < 8 then i + 8 else i - 8) := by
    intro v i hi
    have hout : ∀ k, 16 ≤ k → v.toBitVec.getLsbD k = false := fun k hk =>
      BitVec.getLsbD_of_ge _ _ hk
    by_cases h : i < 8
    · simp [htons, hi, h, Nat.add_comm, -BitVec.getLsbD_eq_getElem]
    · simp [htons, hi, h, hout (8 + i) (by omega), -BitVec.getLsbD_eq_getElem]
  apply UInt16.toBitVec_inj.mp
  apply BitVec.eq_of_getLsbD_eq
  intro i hi
  by_cases h : i < 8
  · rw [hbit _ i hi, if_pos h, hbit _ _ (by omega), if_neg (by omega)]
    congr 1
  · rw [hbit _ i hi, if_neg h, hbit _ _ (by omega), if_pos (by omega)]
    congr 1
    omega

/-- A word of the identifier as it is written. -/
def word (raw : Gid) (i : Fin 4) : List Char := padHex 8 (htonl (load32 raw i)).toNat

def wireGid (raw : Gid) : List Char := word raw 0 ++ (word raw 1 ++ (word raw 2 ++ word raw 3))

theorem word_spells (raw : Gid) (i : Fin 4) : Spells (word raw i) (htonl (load32 raw i)).toNat :=
  spells_padHex 8 _

theorem word_length (raw : Gid) (i : Fin 4) : (word raw i).length = 8 :=
  length_padHex (by omega) (htonl (load32 raw i)).toNat_lt

theorem wireGid_length (raw : Gid) : (wireGid raw).length = 32 := by
  simp [wireGid, word_length]

theorem wireGid_spells (raw : Gid) : ∃ n, Spells (wireGid raw) n := by
  obtain ⟨_, h₂₃⟩ := (word_spells raw 2).append (word_spells raw 3)
  obtain ⟨_, h₁₂₃⟩ := (word_spells raw 1).append h₂₃
  exact (word_spells raw 0).append h₁₂₃

theorem put_word (raw : Gid) (i : Fin 4) (before rest : List Char)
    (hbefore : before.length = i.val * 8) (hrest : 8 < rest.length) :
    putStringAt (i.val * 8) (padHex 8 (htonl (load32 raw i)).toNat) (before ++ rest) =
      some ((before ++ word raw i) ++ nul :: rest.drop 9) := by
  have hlength := word_length raw i
  have hput := putStringAt_append before (lt_of_eq_of_lt hlength hrest)
  rw [hbefore, hlength] at hput
  rw [List.append_assoc]
  exact hput

theorem wordsToWire_eq {wgid : List Char} (h : wgid.length = 33) (raw : Gid) :
    wordsToWire raw wgid = some (wireGid raw ++ [nul]) := by
  have h₀ := put_word raw 0 [] wgid rfl (by omega)
  have h₁ := put_word raw 1 ([] ++ word raw 0) (nul :: wgid.drop 9)
    (by simp [word_length]) (by simp [h])
  have h₂ := put_word raw 2 (([] ++ word raw 0) ++ word raw 1)
    (nul :: (nul :: wgid.drop 9).drop 9) (by simp [word_length]) (by simp [h])
  have h₃ := put_word raw 3 ((([] ++ word raw 0) ++ word raw 1) ++ word raw 2)
    (nul :: (nul :: (nul :: wgid.drop 9).drop 9).drop 9) (by simp [word_length])
    (by simp [h])
  have hlast : ((nul :: (nul :: (nul :: wgid.drop 9).drop 9).drop 9).drop 9) = [] := by
    apply List.drop_eq_nil_of_le
    simp [h]
  rw [hlast] at h₃
  rw [List.nil_append] at h₀
  unfold wordsToWire
  rw [show List.finRange 4 = [0, 1, 2, 3] from rfl]
  simp only [List.foldlM_cons, List.foldlM_nil, h₀, h₁, h₂, h₃, Option.bind_eq_bind,
    Option.bind_some, Option.pure_def]
  simp [wireGid]

theorem word_of_wireGid (raw : Gid) (i : Fin 4) :
    ((wireGid raw ++ [nul]).drop (i.val * 8)).take 8 = word raw i := by
  have hlength := word_length raw
  have hdrop : ∀ i k, 8 ≤ k → (word raw i).drop k = [] := by
    intro i k hk
    apply List.drop_eq_nil_of_le
    rw [hlength]
    exact hk
  fin_cases i <;> simp [wireGid, List.drop_append, hlength, hdrop]

/-- A word that its eight characters spell is stored as it reads. -/
theorem wordFromWire_spells {wgid : List Char} {n : Nat} {i : Fin 4}
    (h : Spells ((wgid.drop (i.val * 8)).take 8) n) (hn : n < 2 ^ 32) (state : UInt32 × Gid) :
    wordFromWire wgid state i = (.ofNat n, store32 state.2 i (ntohl (.ofNat n))) := by
  have hword : ((wgid.drop (i.val * 8)).take 8).takeWhile (· != nul) =
      (wgid.drop (i.val * 8)).take 8 := by
    rw [List.takeWhile_eq_self_iff]
    intro c hc
    simp only [bne_iff_ne]
    rintro rfl
    exact h.nul_notMem hc
  unfold wordFromWire
  dsimp only
  rw [hword, h.sscanf_end (by omega) hn]

theorem wordFromWire_eq (raw : Gid) (state : UInt32 × Gid) (i : Fin 4) :
    wordFromWire (wireGid raw ++ [nul]) state i =
      (htonl (load32 raw i), store32 state.2 i (load32 raw i)) := by
  have hspells := word_spells raw i
  rw [← word_of_wireGid] at hspells
  rw [wordFromWire_spells hspells (htonl (load32 raw i)).toNat_lt]
  simp [ntohl, htonl_htonl]

theorem store32_get (raw : Gid) (i : Fin 4) (v : UInt32) (j : Fin 16) :
    (store32 raw i v).get j =
      if j.val / 4 = i.val then .ofNat (v.toNat / 2 ^ (8 * (j.val % 4))) else raw.get j := by
  exact Vector.getElem_ofFn j.isLt

theorem load32_toNat (raw : Gid) (i : Fin 4) : (load32 raw i).toNat =
    (raw.get ⟨4 * i.val, by omega⟩).toNat + 2 ^ 8 * (raw.get ⟨4 * i.val + 1, by omega⟩).toNat +
    2 ^ 16 * (raw.get ⟨4 * i.val + 2, by omega⟩).toNat +
    2 ^ 24 * (raw.get ⟨4 * i.val + 3, by omega⟩).toNat := by
  have hbyte : ∀ j, (raw.get j).toNat < 2 ^ 8 := fun j => (raw.get j).toNat_lt
  have h₀ := hbyte ⟨4 * i.val, by omega⟩
  have h₁ := hbyte ⟨4 * i.val + 1, by omega⟩
  have h₂ := hbyte ⟨4 * i.val + 2, by omega⟩
  have h₃ := hbyte ⟨4 * i.val + 3, by omega⟩
  unfold load32
  rw [UInt32.toNat_ofNat']
  omega

/-- A byte of a word is the byte that was loaded. -/
theorem load32_byte (raw : Gid) (j : Fin 16) :
    UInt8.ofNat ((load32 raw ⟨j.val / 4, by omega⟩).toNat / 2 ^ (8 * (j.val % 4))) =
      raw.get j := by
  have hbyte : ∀ j, (raw.get j).toNat < 2 ^ 8 := fun j => (raw.get j).toNat_lt
  have hplace : ∀ r (hr : j.val % 4 = r), raw.get j = raw.get ⟨4 * (j.val / 4) + r, by omega⟩ := by
    intro r hr
    congr 1
    apply Fin.ext
    dsimp only
    omega
  have h₀ := hbyte ⟨4 * (j.val / 4), by omega⟩
  have h₁ := hbyte ⟨4 * (j.val / 4) + 1, by omega⟩
  have h₂ := hbyte ⟨4 * (j.val / 4) + 2, by omega⟩
  have h₃ := hbyte ⟨4 * (j.val / 4) + 3, by omega⟩
  have hcases : j.val % 4 = 0 ∨ j.val % 4 = 1 ∨ j.val % 4 = 2 ∨ j.val % 4 = 3 := by omega
  rw [← UInt8.toNat_inj, UInt8.toNat_ofNat', load32_toNat]
  rcases hcases with hr | hr | hr | hr <;> rw [hplace _ hr, hr] <;> simp <;> omega

/-- The words are stored over all of the token, so nothing of the old one is left. -/
theorem wordsFromWire_words {wgid : List Char} {gid : Gid} {read stored : Fin 4 → UInt32}
    (hread : ∀ state i, wordFromWire wgid state i = (read i, store32 state.2 i (stored i)))
    (hbytes : ∀ j : Fin 16, UInt8.ofNat ((stored ⟨j.val / 4, by omega⟩).toNat /
      2 ^ (8 * (j.val % 4))) = gid.get j)
    (old : Gid) (v32 : UInt32) : wordsFromWire wgid v32 old = gid := by
  unfold wordsFromWire
  rw [show List.finRange 4 = [0, 1, 2, 3] from rfl]
  simp only [List.foldl_cons, List.foldl_nil, hread]
  apply Vector.ext
  intro k hk
  have hcases : k / 4 = 0 ∨ k / 4 = 1 ∨ k / 4 = 2 ∨ k / 4 = 3 := by omega
  change Vector.get _ ⟨k, hk⟩ = Vector.get _ ⟨k, hk⟩
  simp only [store32_get, ← hbytes ⟨k, hk⟩]
  rcases hcases with hk' | hk' | hk' | hk' <;> simp [hk']

theorem wordsFromWire_eq (raw old : Gid) (v32 : UInt32) :
    wordsFromWire (wireGid raw ++ [nul]) v32 old = raw :=
  wordsFromWire_words (wordFromWire_eq raw) (load32_byte raw) old v32

/-- The items of a message. -/
def items (msg : CmMsg) (gid : List Char) : List Item :=
  [.number msg.cm.lid.toNat, .number msg.cm.localQpn.toNat, .number msg.cm.psn.toNat,
    .number msg.cm.peerQpn.toNat, .number msg.mcGroup.ipAddrMember1.toNat,
    .number msg.mcGroup.portMember1.toNat, .number msg.mcGroup.ipAddrMember2.toNat,
    .number msg.mcGroup.portMember2.toNat, .string gid]

/-- A way to write numbers in at most so many digits. -/
structure Writes (number : Nat → Nat → List Char) : Prop where
  spells : ∀ width n, Spells (number width n) n
  length : ∀ width n, 0 < width → n < 16 ^ width → (number width n).length ≤ width

theorem writes_toHex : Writes fun _ => toHex :=
  ⟨fun _ => spells_toHex, fun _ _ => length_toHex_le⟩

theorem writes_padHex : Writes padHex :=
  ⟨spells_padHex, fun _ _ hwidth hn => (length_padHex hwidth hn).le⟩

variable {number : Nat → Nat → List Char}

theorem sscanf_handshakeText (h : Writes number) (msg : CmMsg) (raw : Gid) :
    sscanf handshakeFormat (handshakeText number msg (wireGid raw)) = items msg (wireGid raw) := by
  obtain ⟨_, hgid⟩ := wireGid_spells raw
  unfold handshakeFormat handshakeText items
  rw [(h.spells 4 _).sscanf_colon (by omega) msg.cm.lid.toNat_lt,
    (h.spells 8 _).sscanf_colon (by omega) msg.cm.localQpn.toNat_lt,
    (h.spells 8 _).sscanf_colon (by omega) msg.cm.psn.toNat_lt,
    (h.spells 8 _).sscanf_colon (by omega) msg.cm.peerQpn.toNat_lt,
    (h.spells 8 _).sscanf_colon (by omega) msg.mcGroup.ipAddrMember1.toNat_lt,
    (h.spells 4 _).sscanf_colon (by omega) msg.mcGroup.portMember1.toNat_lt,
    (h.spells 8 _).sscanf_colon (by omega) msg.mcGroup.ipAddrMember2.toNat_lt,
    (h.spells 4 _).sscanf_colon (by omega) msg.mcGroup.portMember2.toNat_lt,
    hgid.sscanf_string]

theorem tcpMsgLen_eq : tcpMsgLen = 93 := by decide

theorem length_handshakeText (h : Writes number) (msg : CmMsg) (raw : Gid) :
    (handshakeText number msg (wireGid raw)).length < tcpMsgLen := by
  have h16 : ∀ v : UInt16, (number 4 v.toNat).length ≤ 4 := fun v =>
    h.length 4 _ (by omega) v.toNat_lt
  have h32 : ∀ v : UInt32, (number 8 v.toNat).length ≤ 8 := fun v =>
    h.length 8 _ (by omega) v.toNat_lt
  have hlid := h16 msg.cm.lid
  have hlocal := h32 msg.cm.localQpn
  have hpsn := h32 msg.cm.psn
  have hpeer := h32 msg.cm.peerQpn
  have hip₁ := h32 msg.mcGroup.ipAddrMember1
  have hport₁ := h16 msg.mcGroup.portMember1
  have hip₂ := h32 msg.mcGroup.ipAddrMember2
  have hport₂ := h16 msg.mcGroup.portMember2
  rw [tcpMsgLen_eq]
  simp only [handshakeText, List.length_append, List.length_cons, wireGid_length]
  omega

theorem nul_notMem_handshakeText (h : Writes number) (msg : CmMsg) (raw : Gid) :
    nul ∉ handshakeText number msg (wireGid raw) := by
  obtain ⟨_, hgid⟩ := wireGid_spells raw
  have hnumber : ∀ width n, nul ∉ number width n := fun width n => (h.spells width n).nul_notMem
  have hcolon : nul ≠ ':' := by decide
  simp [handshakeText, hnumber, hgid.nul_notMem, hcolon]

theorem digitChar_range : ∀ d < 10, ('0' ≤ d.digitChar ∧ d.digitChar ≤ '9') ∧
    d.digitChar.toNat - '0'.toNat = d := by decide

theorem Dotted.next_first {done : List Nat} (hdone : done.length < 4) {d : Nat} (hd : d < 10) :
    Dotted.next ⟨done, none⟩ d.digitChar = some ⟨done, some d⟩ := by
  obtain ⟨hrange, hvalue⟩ := digitChar_range d hd
  unfold Dotted.next
  rw [if_pos hrange, hvalue]
  exact if_neg hdone.ne

theorem Dotted.next_digit {done : List Nat} {octet d : Nat} (hd : d < 10) (hoctet : octet ≠ 0)
    (hsum : octet * 10 + d < 256) :
    Dotted.next ⟨done, some octet⟩ d.digitChar = some ⟨done, some (octet * 10 + d)⟩ := by
  obtain ⟨hrange, hvalue⟩ := digitChar_range d hd
  unfold Dotted.next
  rw [if_pos hrange, hvalue]
  exact if_neg (by omega)

theorem Dotted.next_dot {done : List Nat} (hdone : done.length < 3) (octet : Nat) :
    Dotted.next ⟨done, some octet⟩ '.' = some ⟨done ++ [octet], none⟩ := by
  unfold Dotted.next
  rw [if_neg (by decide), if_pos rfl]
  exact if_neg hdone.ne

/-- The digits of an octet are read as that octet. -/
theorem Dotted.foldlM_toDigits {done : List Nat} (hdone : done.length < 4) {n : Nat}
    (hn : n < 256) :
    (Nat.toDigits 10 n).foldlM Dotted.next ⟨done, none⟩ = some ⟨done, some n⟩ := by
  induction n using Nat.strong_induction_on with
  | _ n ih =>
      by_cases hsmall : n < 10
      · rw [Nat.toDigits_of_lt_base hsmall, List.foldlM_cons, Dotted.next_first hdone hsmall]
        rfl
      · have hnext : n / 10 * 10 + n % 10 = n := by omega
        have hdigit : Dotted.next ⟨done, some (n / 10)⟩ (n % 10).digitChar =
            some ⟨done, some (n / 10 * 10 + n % 10)⟩ :=
          Dotted.next_digit (by omega) (by omega) (by omega)
        rw [Nat.toDigits_of_base_le (by omega) (by omega), List.foldlM_append,
          ih (n / 10) (by omega) (by omega)]
        change List.foldlM Dotted.next _ _ = _
        rw [List.foldlM_cons, hdigit, hnext]
        rfl

theorem Dotted.foldlM_octet {done : List Nat} (hdone : done.length < 3) {n : Nat} (hn : n < 256)
    (text : List Char) :
    (Nat.toDigits 10 n ++ '.' :: text).foldlM Dotted.next ⟨done, none⟩ =
      text.foldlM Dotted.next ⟨done ++ [n], none⟩ := by
  rw [List.foldlM_append, Dotted.foldlM_toDigits (by omega) hn]
  change List.foldlM Dotted.next _ _ = _
  rw [List.foldlM_cons, Dotted.next_dot hdone]
  rfl

theorem inetPton_inetNtoa (sAddr : UInt32) : inetPton (inetNtoa sAddr) = some sAddr := by
  have hlt : sAddr.toNat < 2 ^ 32 := sAddr.toNat_lt
  have hmod : ∀ n, n % 256 < 256 := fun n => Nat.mod_lt n (by omega)
  have hvalue : sAddr.toNat % 256 + 2 ^ 8 * (sAddr.toNat / 2 ^ 8 % 256) +
      2 ^ 16 * (sAddr.toNat / 2 ^ 16 % 256) + 2 ^ 24 * (sAddr.toNat / 2 ^ 24 % 256) =
      sAddr.toNat := by omega
  unfold inetPton inetNtoa
  rw [Dotted.foldlM_octet (by simp) (hmod _), Dotted.foldlM_octet (by simp) (hmod _),
    Dotted.foldlM_octet (by simp) (hmod _), Dotted.foldlM_toDigits (by simp) (hmod _)]
  change some (UInt32.ofNat _) = some sAddr
  rw [hvalue, UInt32.ofNat_toNat]

theorem length_inetNtoa (sAddr : UInt32) : (inetNtoa sAddr).length < 20 := by
  have hoctet : ∀ n, (Nat.toDigits 10 (n % 256)).length ≤ 3 := fun n =>
    (Nat.length_toDigits_le_iff (by omega) (by omega)).mpr (by omega)
  have h₀ := hoctet sAddr.toNat
  have h₁ := hoctet (sAddr.toNat / 2 ^ 8)
  have h₂ := hoctet (sAddr.toNat / 2 ^ 16)
  have h₃ := hoctet (sAddr.toNat / 2 ^ 24)
  simp only [inetNtoa, List.length_append, List.length_cons]
  omega

theorem nul_notMem_inetNtoa (sAddr : UInt32) : nul ∉ inetNtoa sAddr := by
  have hoctet : ∀ n, nul ∉ Nat.toDigits 10 n := by
    intro n hmem
    exact absurd (Nat.isDigit_of_mem_toDigits (by omega) (by omega) hmem) (by decide)
  have hdot : nul ≠ '.' := by decide
  simp [inetNtoa, hoctet, hdot]

theorem memberSockaddr_eq (sAddr : UInt32) (port : UInt16) (locals : Locals) :
    memberSockaddr sAddr port locals = some ⟨htons port, sAddr⟩ := by
  have hfits : (inetNtoa sAddr).length < locals.ipChar.length := by
    rw [locals.ipChar_length]
    exact length_inetNtoa sAddr
  unfold memberSockaddr
  rw [putString_eq hfits]
  change (cString _ >>= _) = _
  rw [cString_put (nul_notMem_inetNtoa sAddr)]
  change some (setAddr _ _ _) = _
  unfold setAddr
  rw [inetPton_inetNtoa]
  rfl

/-- A buffer that holds a message, for each of those who read it. -/
structure Carries (msg : CmMsg) (buffer : List Char) : Prop where
  length : buffer.length = tcpMsgLen
  queuePair : ∀ locals peerCmMeta, CmMeta.recvCmMeta buffer locals peerCmMeta = some msg.cm
  first : ∀ locals mcCmMeta, McMeta.scanFirst buffer locals mcCmMeta =
    some (mcCmMeta.setSender msg.cm, ⟨msg.mcGroup.ipAddrMember1, msg.mcGroup.portMember1⟩,
      ⟨msg.mcGroup.ipAddrMember2, msg.mcGroup.portMember2⟩)
  later : ∀ locals mcCmMeta, McMeta.scanLater buffer locals mcCmMeta =
    some (mcCmMeta.setSender msg.cm)
  receiver : ∀ locals index mcCmMeta, McMeta.scanReceiver buffer locals index mcCmMeta =
    some (mcCmMeta.setReceiver index msg.cm)

theorem scannedString_gid (msg : CmMsg) (raw : Gid) (locals : Locals) :
    scannedString (items msg (wireGid raw)) 8 locals.gid = some (wireGid raw ++ [nul]) := by
  have hlength := wireGid_length raw
  have hlast : locals.gid.drop ((wireGid raw).length + 1) = [] := by
    apply List.drop_eq_nil_of_le
    rw [locals.gid_length]
    omega
  change putString (wireGid raw) locals.gid = _
  rw [putString_eq (by rw [locals.gid_length]; omega), hlast]

theorem carries_handshakeText (h : Writes number) (msg : CmMsg) {rest : List Char}
    (hlength : (handshakeText number msg (wireGid msg.cm.gid) ++ nul :: rest).length = tcpMsgLen) :
    Carries msg (handshakeText number msg (wireGid msg.cm.gid) ++ nul :: rest) := by
  have htext : cString (handshakeText number msg (wireGid msg.cm.gid) ++ nul :: rest) =
      some (handshakeText number msg (wireGid msg.cm.gid)) :=
    cString_put (nul_notMem_handshakeText h msg msg.cm.gid)
  have hitems := sscanf_handshakeText h msg msg.cm.gid
  have hsender : ∀ locals mcCmMeta,
      McMeta.scanSender (handshakeText number msg (wireGid msg.cm.gid) ++ nul :: rest) locals
        mcCmMeta = some (mcCmMeta.setSender msg.cm, items msg (wireGid msg.cm.gid)) := by
    intro locals mcCmMeta
    simp only [McMeta.scanSender, htext, hitems, scannedString_gid, McMeta.wireGidToGid,
      wordsFromWire_eq, Option.bind_eq_bind, Option.bind_some, Option.pure_def]
    simp [items, scanned16, scanned32, McMeta.setSender]
  refine ⟨hlength, ?_, ?_, ?_, ?_⟩
  · intro locals peerCmMeta
    simp only [CmMeta.recvCmMeta, htext, hitems, scannedString_gid, CmMeta.wireGidToGid,
      wordsFromWire_eq, Option.bind_eq_bind, Option.bind_some, Option.pure_def]
    simp [items, scanned16, scanned32]
  · intro locals mcCmMeta
    simp only [McMeta.scanFirst, hsender, memberSockaddr_eq, SockaddrIn.entityAddr, ntohs,
      htons_htons, Option.bind_eq_bind, Option.bind_some, Option.pure_def]
    simp [items, scanned16, scanned32]
  · intro locals mcCmMeta
    simp only [McMeta.scanLater, hsender, Option.bind_eq_bind, Option.bind_some, Option.pure_def]
  · intro locals index mcCmMeta
    simp only [McMeta.scanReceiver, htext, hitems, scannedString_gid, McMeta.wireGidToGid,
      wordsFromWire_eq, Option.bind_eq_bind, Option.bind_some, Option.pure_def]
    simp [items, scanned16, scanned32, McMeta.setReceiver]

/-- A message that is written over the buffer of its writer. -/
theorem carries_put (h : Writes number) (msg : CmMsg) (locals : Locals) :
    ∃ buffer, putString (handshakeText number msg (wireGid msg.cm.gid)) locals.msg = some buffer ∧
      Carries msg buffer := by
  have hfits : (handshakeText number msg (wireGid msg.cm.gid)).length < locals.msg.length := by
    rw [locals.msg_length]
    exact length_handshakeText h msg msg.cm.gid
  refine ⟨_, putString_eq hfits, ?_⟩
  apply carries_handshakeText h
  rw [length_put hfits, locals.msg_length]

theorem cString_wireGid (raw : Gid) : cString (wireGid raw ++ [nul]) = some (wireGid raw) := by
  obtain ⟨_, hgid⟩ := wireGid_spells raw
  exact cString_put hgid.nul_notMem

theorem sendCmMeta_eq (msg : CmMsg) (locals : Locals) :
    msg.cm.sendCmMeta msg.mcGroup locals =
      putString (handshakeText (fun _ => toHex) msg (wireGid msg.cm.gid)) locals.msg := by
  simp only [CmMeta.sendCmMeta, CmMeta.gidToWireGid, wordsToWire_eq locals.gid_length,
    cString_wireGid, Option.bind_eq_bind, Option.bind_some]

theorem sendHandshake_eq (msg : CmMsg) (locals : Locals) :
    McMeta.sendHandshake msg locals =
      putString (handshakeText padHex msg (wireGid msg.cm.gid)) locals.msg := by
  simp only [McMeta.sendHandshake, McMeta.gidToWireGid, wordsToWire_eq locals.gid_length,
    cString_wireGid, Option.bind_eq_bind, Option.bind_some]

/-- Whatever the buffers held before, the text of each writer fits with its
terminator into the message, and each reader finds in it what was written: the
queue pair, the daemon in the first and in a later message of a client, with the
addresses and ports of the members, and the daemon in a message of a server. -/
theorem handshake_round_trip (msg : CmMsg) (mcCmMeta : McMeta) (mcId : McId) (i : Fin 2)
    (locals : Locals) :
    (∃ buffer, msg.cm.sendCmMeta msg.mcGroup locals = some buffer ∧ Carries msg buffer) ∧
    (∃ buffer, mcCmMeta.sendHandshakeToServer i locals = some buffer ∧
      Carries (mcCmMeta.serverMsg i) buffer) ∧
    (∃ buffer, mcCmMeta.sendHandshakeToClient mcId locals = some buffer ∧
      Carries (mcCmMeta.clientMsg mcId) buffer) := by
  refine ⟨?_, ?_, ?_⟩
  · rw [sendCmMeta_eq]
    exact carries_put writes_toHex msg locals
  · unfold McMeta.sendHandshakeToServer
    rw [sendHandshake_eq]
    exact carries_put writes_padHex _ locals
  · unfold McMeta.sendHandshakeToClient
    rw [sendHandshake_eq]
    exact carries_put writes_padHex _ locals

end RdmaCapsule.Multicast
