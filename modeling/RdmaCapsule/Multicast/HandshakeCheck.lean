import Mathlib
import RdmaCapsule.Foundation.Fields
import RdmaCapsule.Multicast.WireFormat

/-! What `recv_cm_meta` makes of any bytes that a peer may send. It looks at their number, and
neither at what the scan returns nor at the length of the last token. -/
namespace RdmaCapsule.Multicast

open RdmaCapsule.Core RdmaCapsule.Foundation.Text

/-- What `::read` gives. -/
inductive SocketRead where
  | failed (errno : Nat)
  | got (bytes : List Char)

def einval : Int := 22

end RdmaCapsule.Multicast

namespace RdmaCapsule.Core.CmMeta

open RdmaCapsule.Foundation.Text RdmaCapsule.Multicast

/-- `recv_cm_meta`, with what it returns; nothing if it runs past the end of a buffer. -/
def recvCmMetaFrom (read : SocketRead) (locals : Locals) (peerCmMeta : CmMeta) :
    Option (Int × CmMeta) :=
  match read with
  | .failed errno => some (-errno, peerCmMeta)
  | .got bytes =>
      if bytes.length = 0 then some (0, peerCmMeta)
      else if bytes.length ≠ tcpMsgLen then some (-einval, peerCmMeta)
      else do
        let peerCmMeta ← recvCmMeta bytes locals peerCmMeta
        pure (bytes.length, peerCmMeta)

end RdmaCapsule.Core.CmMeta

namespace RdmaCapsule.Multicast

open RdmaCapsule.Core RdmaCapsule.Foundation.Text

variable {token msg : List Char} {locals : Locals}

/-- The widths of the numbers. -/
def handshakeWidths : List Nat := [16, 32, 32, 32, 32, 16, 32, 16]

theorem handshakeFormat_eq : handshakeFormat = fieldsFormat handshakeWidths := rfl

/-- A message of the right length is never rejected. -/
theorem recvCmMetaFrom_eq (hlength : msg.length = tcpMsgLen) (peerCmMeta : CmMeta) :
    CmMeta.recvCmMetaFrom (.got msg) locals peerCmMeta =
      (CmMeta.recvCmMeta msg locals peerCmMeta).map fun cm => (93, cm) := by
  unfold CmMeta.recvCmMetaFrom
  dsimp only
  rw [if_neg (by rw [hlength]; decide), if_neg (not_not.mpr hlength), hlength]
  cases CmMeta.recvCmMeta msg locals peerCmMeta <;> rfl

/-- It runs past the end of `gid` exactly when all fields are present and the token is longer. -/
theorem recvCmMetaFrom_overflow_iff {text : List Char} (hlength : msg.length = tcpMsgLen)
    (htext : cString msg = some text) (peerCmMeta : CmMeta) :
    CmMeta.recvCmMetaFrom (.got msg) locals peerCmMeta = none ↔
      ∃ numbers token, FieldText text numbers token ∧ numbers.length = 8 ∧ 32 < token.length := by
  have hlast {numbers : List Nat} {token : List Char} (hnumbers : numbers.length = 8) :
      (fieldsItems handshakeWidths numbers token)[8]? = some (.string token) := by
    have hzip : (List.zipWith (fun bits n => Item.number (n % 2 ^ bits)) handshakeWidths
        numbers).length = 8 := by
      rw [List.length_zipWith, hnumbers]
      rfl
    rw [fieldsItems, List.getElem?_append_right (Nat.le_of_eq hzip), hzip]
    rfl
  have hscan : CmMeta.recvCmMeta msg locals peerCmMeta = none ↔
      scannedString (sscanf handshakeFormat text) 8 locals.gid = none := by
    unfold CmMeta.recvCmMeta
    rw [htext, Option.bind_eq_bind, Option.bind_some]
    cases hgid : scannedString (sscanf handshakeFormat text) 8 locals.gid <;> simp [hgid]
  have hput {token : List Char} : putString token locals.gid = none ↔ 32 < token.length := by
    unfold putString
    rw [locals.gid_length]
    split
    · exact iff_of_false nofun (by omega)
    · exact iff_of_true rfl (by omega)
  rw [recvCmMetaFrom_eq hlength, Option.map_eq_none_iff, hscan, handshakeFormat_eq]
  constructor
  · intro hnone
    unfold scannedString at hnone
    split at hnone
    · rename_i token hitem
      obtain ⟨hmore, -⟩ := List.getElem?_eq_some_iff.mp hitem
      obtain ⟨numbers, word, hfields, hnumbers⟩ := fields_of_sscanf handshakeWidths hmore
      rw [hfields.sscanf _ hnumbers, hlast hnumbers] at hitem
      cases hitem
      exact ⟨numbers, token, hfields, hnumbers, hput.mp hnone⟩
    · cases hnone
  · rintro ⟨numbers, token, hfields, hnumbers, hlong⟩
    rw [hfields.sscanf handshakeWidths hnumbers, scannedString, hlast hnumbers]
    exact hput.mpr hlong

end RdmaCapsule.Multicast
