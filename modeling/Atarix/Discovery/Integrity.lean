import Atarix.Discovery.Validate

/-! # What acceptance says about the checksums

The header checksum is always compared. The image checksum is compared through a
stack copy of 512 bytes, so it counts only for images handed over with a size
that fits the copy.
-/

namespace Atarix

/-- Both checksums of an image are those of its bytes: the header with both
fields cleared, and the declared length with the image field cleared. -/
structure ImageIntegrity (image : Memory) : Prop where
  header : DiscoveryHeader.headerCrc32 image =
    crc32IsoHdlc (image.zeroRange 24 8) discoveryHeaderSizeV1
  image : DiscoveryHeader.imageCrc32 image =
    crc32IsoHdlc (image.zeroRange 28 4) (DiscoveryHeader.totalLength image)

theorem discoveryCrcValid_iff (image : Memory) (imageSize : Nat) :
    discoveryCrcValid image imageSize = true ↔
      DiscoveryHeader.headerCrc32 image =
          crc32IsoHdlc (image.zeroRange 24 8) discoveryHeaderSizeV1 ∧
        (imageSize ≤ 512 → DiscoveryHeader.imageCrc32 image =
          crc32IsoHdlc (image.zeroRange 28 4) (DiscoveryHeader.totalLength image)) := by
  simp only [discoveryCrcValid]
  split_ifs with hheader hsize
  · simp [eq_comm, hheader]
  · simp [not_not.mp hheader, hsize]
  · rw [decide_eq_true_eq, ← not_not.mp hheader, eq_comm]
    simp [Nat.le_of_not_lt hsize]

/-- A wrong checksum is one of the reasons to refuse an image. -/
theorem crcValid_of_validate {image : Memory} {imageSize : Nat}
    (hvalid : discoveryValidate (some image) imageSize = .ok) :
    discoveryCrcValid image imageSize = true := by
  simp only [discoveryValidate] at hvalid
  split_ifs at hvalid with hsize hmagic hversion hlength hcrc
  exact hcrc

/-- What the validator asks for besides the image checksum: the header in order, its
checksum, and a chain of records that fits the declared count. -/
structure OtherwiseValid (image : Memory) (imageSize : Nat) : Prop where
  size_ge : discoveryHeaderSizeV1 ≤ imageSize
  magic : DiscoveryHeader.magic image = discoveryMagicAtdx
  version : DiscoveryHeader.versionMajor image = discoveryVersionMajorV1
  header_le : discoveryHeaderSizeV1 ≤ DiscoveryHeader.totalLength image
  total_le : DiscoveryHeader.totalLength image ≤ imageSize
  aligned : DiscoveryHeader.totalLength image % 8 = 0
  headerCrc : DiscoveryHeader.headerCrc32 image =
    crc32IsoHdlc (image.zeroRange 24 8) discoveryHeaderSizeV1
  records : ∃ records,
    RecordChain image (DiscoveryHeader.totalLength image) discoveryHeaderSizeV1 records ∧
      (DiscoveryHeader.recordCount image = 0 ∨
        DiscoveryHeader.recordCount image = BitVec.ofNat 32 (records.length + 1))

theorem otherwiseValid_of_validate {image : Memory} {imageSize : Nat}
    (hvalid : discoveryValidate (some image) imageSize = .ok) :
    OtherwiseValid image imageSize := by
  obtain ⟨hheaderCrc, -⟩ := (discoveryCrcValid_iff image imageSize).mp (crcValid_of_validate hvalid)
  have hrecords := recordChain_of_validate hvalid
  simp only [discoveryValidate] at hvalid
  split_ifs at hvalid with hsize hmagic hversion hlength hcrc
  push Not at hlength
  obtain ⟨hheader, htotal, haligned⟩ := hlength
  exact ⟨Nat.le_of_not_lt hsize, of_decide_eq_true hmagic, not_not.mp hversion, hheader, htotal,
    haligned, hheaderCrc, hrecords⟩

/-- Acceptance, with the image checksum asked for only at the sizes that fit the copy. -/
theorem discoveryValidate_ok_iff (image : Memory) (imageSize : Nat) :
    discoveryValidate (some image) imageSize = .ok ↔
      OtherwiseValid image imageSize ∧
        (imageSize ≤ 512 → DiscoveryHeader.imageCrc32 image =
          crc32IsoHdlc (image.zeroRange 28 4) (DiscoveryHeader.totalLength image)) := by
  constructor
  · intro hvalid
    exact ⟨otherwiseValid_of_validate hvalid,
      ((discoveryCrcValid_iff image imageSize).mp (crcValid_of_validate hvalid)).2⟩
  · rintro ⟨hvalid, himage⟩
    obtain ⟨records, hchain, hcount⟩ := hvalid.records
    exact discoveryValidate_of_chain hvalid.magic hvalid.version hvalid.header_le hvalid.total_le
      hvalid.aligned ((discoveryCrcValid_iff image imageSize).mpr ⟨hvalid.headerCrc, himage⟩)
      hchain hcount

/-- An accepted image has both checksums exactly if its size fits the stack copy or the
stored image checksum happens to be right. -/
theorem imageIntegrity_iff_of_validate {image : Memory} {imageSize : Nat}
    (hvalid : discoveryValidate (some image) imageSize = .ok) :
    ImageIntegrity image ↔
      imageSize ≤ 512 ∨ DiscoveryHeader.imageCrc32 image =
        crc32IsoHdlc (image.zeroRange 28 4) (DiscoveryHeader.totalLength image) := by
  obtain ⟨hother, himage⟩ := (discoveryValidate_ok_iff image imageSize).mp hvalid
  constructor
  · exact fun hintegrity => .inr hintegrity.image
  · rintro (hfits | hstored)
    · exact ⟨hother.headerCrc, himage hfits⟩
    · exact ⟨hother.headerCrc, hstored⟩

/-- Acceptance of an image vouches for both its checksums, unless the image is past the
stack copy with everything in order but the image checksum. -/
theorem validate_integrity_iff (image : Memory) (imageSize : Nat) :
    (discoveryValidate (some image) imageSize = .ok → ImageIntegrity image) ↔
      imageSize ≤ 512 ∨
        DiscoveryHeader.imageCrc32 image =
          crc32IsoHdlc (image.zeroRange 28 4) (DiscoveryHeader.totalLength image) ∨
        ¬ OtherwiseValid image imageSize := by
  constructor
  · intro hintegrity
    by_contra! hnone
    obtain ⟨hlarge, hstored, hother⟩ := hnone
    have hvalid : discoveryValidate (some image) imageSize = .ok :=
      (discoveryValidate_ok_iff image imageSize).mpr
        ⟨hother, fun hfits => absurd hlarge (Nat.not_lt.mpr hfits)⟩
    exact hstored (hintegrity hvalid).image
  · intro hcondition hvalid
    refine (imageIntegrity_iff_of_validate hvalid).mpr ?_
    rcases hcondition with hfits | hstored | hother
    · exact .inl hfits
    · exact .inr hstored
    · exact absurd (otherwiseValid_of_validate hvalid) hother

/-- An END record behind a header whose image checksum is left at zero. -/
def uncheckedImage : Memory := Memory.ofList [
  0x41, 0x54, 0x44, 0x58, 0x01, 0x00, 0x00, 0x00, 0x28, 0x00, 0x00, 0x00, 0x01, 0x00, 0x00, 0x00,
  0x07, 0x00, 0x00, 0x00, 0x00, 0x00, 0x00, 0x00, 0xC6, 0x0D, 0x5B, 0x45, 0x00, 0x00, 0x00, 0x00,
  0xFF, 0xFF, 0x01, 0x00, 0x08, 0x00, 0x00, 0x00]

theorem uncheckedImage_not_integrity : ¬ ImageIntegrity uncheckedImage := by
  intro hintegrity
  exact absurd hintegrity.image (by decide +kernel)

theorem uncheckedImage_otherwiseValid {imageSize : Nat} (hsize : 40 ≤ imageSize) :
    OtherwiseValid uncheckedImage imageSize := by
  have htotal : DiscoveryHeader.totalLength uncheckedImage = 40 := by decide +kernel
  have hfits : RecordFits uncheckedImage 40 discoveryHeaderSizeV1 :=
    ⟨by decide +kernel, by decide +kernel, by decide +kernel, by decide +kernel⟩
  have hchain : RecordChain uncheckedImage 40 discoveryHeaderSizeV1 [] :=
    .stop hfits (by decide +kernel)
  refine ⟨le_trans (by decide) hsize, by decide +kernel, by decide +kernel, ?_, ?_, ?_,
    by decide +kernel, [], ?_, .inr (by decide +kernel)⟩
  · rw [htotal]
    decide
  · rwa [htotal]
  · rw [htotal]
  · rwa [htotal]

/-- Past the stack copy the image checksum is not looked at. -/
theorem uncheckedImage_accepted {imageSize : Nat} (hsize : 512 < imageSize) :
    discoveryValidate (some uncheckedImage) imageSize = .ok :=
  (discoveryValidate_ok_iff uncheckedImage imageSize).mpr
    ⟨uncheckedImage_otherwiseValid (by omega), fun hfits => absurd hsize (Nat.not_lt.mpr hfits)⟩

/-- By sizes: acceptance vouches for both checksums of every image exactly at the sizes
that fit the stack copy. -/
theorem forall_validate_integrity_iff (imageSize : Nat) :
    (∀ image, discoveryValidate (some image) imageSize = .ok → ImageIntegrity image) ↔
      imageSize ≤ 512 := by
  constructor
  · intro hintegrity
    by_contra hlarge
    exact uncheckedImage_not_integrity
      (hintegrity uncheckedImage (uncheckedImage_accepted (Nat.lt_of_not_le hlarge)))
  · exact fun hfits image hvalid => (imageIntegrity_iff_of_validate hvalid).mpr (.inl hfits)

/-- At 513 bytes an image with a wrong image checksum is accepted. -/
theorem unchecked_image_accepted_at_513 :
    discoveryValidate (some uncheckedImage) 513 = .ok ∧
      DiscoveryHeader.imageCrc32 uncheckedImage = 0 ∧
      crc32IsoHdlc (uncheckedImage.zeroRange 28 4) 40 = 0xE17EBAA6 ∧
      ¬ ImageIntegrity uncheckedImage :=
  ⟨uncheckedImage_accepted (by decide), by decide +kernel, by decide +kernel,
    uncheckedImage_not_integrity⟩

end Atarix
