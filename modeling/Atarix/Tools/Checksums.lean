import Atarix.Bib.Corruption
import Atarix.Foundation.CrcPolynomial
import Atarix.Sim.HeaderIntegrity
import Atarix.Tools.MkDiscovery

/-! # The checksums of the formats

Five loops compute two checks. Each is the check by polynomial division that its
format names, and the reader's loop, which skips the field the checksum is stored
in, is the builder's over a block with that field cleared.
-/

namespace Atarix

/-- The generator of CRC-32/ISO-HDLC, without `x^32`. -/
def isoHdlcPolynomial : BitVec 32 := 0x04C11DB7

/-- The generator of CRC-32C, without `x^32`. -/
def castagnoliPolynomial : BitVec 32 := 0x1EDC6F41

theorem isoHdlcPolynomial_reverse : isoHdlcPolynomial.reverse = 0xEDB88320 := by decide +kernel

theorem castagnoliPolynomial_reverse : castagnoliPolynomial.reverse = 0x82F63B78 := by
  decide +kernel

/-! ## The bit steps -/

/-- The masked form of the bit step. -/
theorem crc32IsoHdlcBitStep_eq :
    crc32IsoHdlcBitStep = Crc.polynomialStep isoHdlcPolynomial.reverse := by
  funext crc
  rw [crc32IsoHdlcBitStep, Crc.polynomialStep, isoHdlcPolynomial_reverse, Crc.and_one_eq]
  congr 1
  cases crc.getLsbD 0 <;> decide

theorem mailboxCrc32BitStep_eq_reverse :
    mailboxCrc32BitStep = Crc.polynomialStep isoHdlcPolynomial.reverse := by
  rw [isoHdlcPolynomial_reverse, mailboxCrc32BitStep_eq]

theorem crc32cBitStep_eq_reverse :
    crc32cBitStep = Crc.polynomialStep castagnoliPolynomial.reverse := by
  rw [castagnoliPolynomial_reverse, crc32cBitStep_eq]

/-! ## The checks -/

/-- Every loop computes the check that its format names. -/
structure ChecksumsNamed : Prop where
  mailbox : ∀ data length, mailboxCrc32 (some data) length =
    Crc.checksum isoHdlcPolynomial (data.slice 0 length)
  mailboxNull : mailboxCrc32 none 0 = Crc.checksum isoHdlcPolynomial []
  discovery : ∀ data length, crc32IsoHdlc data length =
    Crc.checksum isoHdlcPolynomial (data.slice 0 length)
  mkdiscovery : ∀ data length, MkDiscovery.crc32IsoHdlc data length =
    Crc.checksum isoHdlcPolynomial (data.slice 0 length)
  builder : ∀ data length, crc32c data length =
    Crc.checksum castagnoliPolynomial (data.slice 0 length)
  reader : ∀ data length,
    (crc32cWithZeroedField data length).value = crc32c (data.zeroRange 20 4) length.toNat

theorem xor_ones_eq (crc : BitVec 32) : crc ^^^ 0xFFFFFFFF = ~~~ crc :=
  BitVec.xor_allOnes

theorem checksums_named : ChecksumsNamed := by
  have hmailbox : ∀ data length, mailboxCrc32 (some data) length =
      Crc.checksum isoHdlcPolynomial (data.slice 0 length) := by
    intro data length
    rw [← Crc.update_eq_checksum, ← mailboxCrc32BitStep_eq_reverse]
    exact xor_ones_eq _
  have hiso : ∀ data length, crc32IsoHdlc data length =
      Crc.checksum isoHdlcPolynomial (data.slice 0 length) := by
    intro data length
    rw [← Crc.update_eq_checksum, ← crc32IsoHdlcBitStep_eq]
    rfl
  refine ⟨hmailbox, hmailbox (fun _ => 0) 0, hiso, hiso, fun data length => ?_,
    crc32cWithZeroedField_value⟩
  rw [← Crc.update_eq_checksum, ← crc32cBitStep_eq_reverse]
  exact xor_ones_eq _

/-! The check values of the two formats, over the digits from one to nine. -/

example : crc32IsoHdlc (Memory.ofList [0x31, 0x32, 0x33, 0x34, 0x35, 0x36, 0x37, 0x38, 0x39]) 9 =
    0xCBF43926 := by
  decide +kernel

example : crc32c (Memory.ofList [0x31, 0x32, 0x33, 0x34, 0x35, 0x36, 0x37, 0x38, 0x39]) 9 =
    0xE3069283 := by
  decide +kernel

end Atarix
