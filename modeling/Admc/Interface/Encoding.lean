import Admc.Interface.Descriptor
import Mathlib.Logic.Equiv.List
import Mathlib.Tactic.DeriveEncodable

/-!
# An encoding of descriptors

Descriptors are encodable, as the types that they are made of are, and a number can be
written in bytes. The encoding of descriptors is a parameter of the model; this is one that
gives every descriptor back (`pull_encodingNdr`), to evaluate the model with.
-/

namespace Admc

instance instEncodableBitVec {w : ℕ} : Encodable (BitVec w) :=
  Encodable.ofLeftInverse BitVec.toNat (BitVec.ofNat w) fun x => by simp

instance instEncodableChar : Encodable Char :=
  Encodable.ofLeftInverse Char.toNat Char.ofNat Char.ofNat_toNat

instance instEncodableString : Encodable String :=
  Encodable.ofLeftInverse String.toList String.ofList fun _ => String.ofList_toList

deriving instance Encodable for Guid
deriving instance Encodable for SecurityAceType
deriving instance Encodable for AceObject
deriving instance Encodable for ClaimValues
deriving instance Encodable for Claim
deriving instance Encodable for AceCoda

instance : Encodable DomSid :=
  Encodable.ofLeftInjection (fun sid : DomSid => (sid.sidRevNum, sid.idAuth, sid.subAuths))
    (fun parts => if h : parts.2.1.length = 6 ∧ parts.2.2.length ≤ 15 then
      some ⟨parts.1, parts.2.1, parts.2.2, h.1, h.2⟩ else none)
    fun sid => dif_pos ⟨sid.idAuth_length, sid.subAuths_length⟩

deriving instance Encodable for SecurityAce
deriving instance Encodable for SecurityAcl
deriving instance Encodable for SecurityDescriptor

/-- As many bytes as the number of a descriptor, and one more. -/
def encodingNdr : Ndr where
  pull bytes := if bytes = [] then none else Encodable.decode (bytes.length - 1)
  push sd := some (List.replicate (Encodable.encode sd + 1) 0)

theorem pull_encodingNdr (sd : SecurityDescriptor) :
    encodingNdr.pull (descriptorToBytes encodingNdr sd) = some sd := by
  have hbytes : descriptorToBytes encodingNdr sd = List.replicate (Encodable.encode sd + 1) 0 := rfl
  rw [hbytes, encodingNdr]
  dsimp only
  rw [if_neg (by simp), List.length_replicate, Nat.add_sub_cancel, Encodable.encodek]

end Admc
