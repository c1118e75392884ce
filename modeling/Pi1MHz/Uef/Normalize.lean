import Pi1MHz.Tape.Repair

/-! The two UEF normalizers of the network backend (`pi1mhz_net_backend.c`): the tree of
`normalize_uef_control` and the one FINALIZE has of its own. Each takes the bytes it was
given and the capacity of its destination, and returns its verdict, the blocks it stored
at the start of the destination, in order, and the image it ends with. Allocation never
fails here. -/
namespace Pi1MHz.NetBackend
open UefRepair

/-- The part of zlib the backend calls. `inflate windowBits capacity source` is one
`inflate(Z_FINISH)` into `capacity` bytes: its result code and the bytes it produced, with a
failed `inflateInit2` counted among the failures. -/
structure Zlib where
  crc32 : List UInt8 → UInt32
  inflate : Int → Nat → List UInt8 → Int × List UInt8
  bounded : ∀ windowBits capacity source, (inflate windowBits capacity source).2.length ≤ capacity

def maxWbits : Int := 15
def zStreamEnd : Int := 1
def zBufError : Int := -5

/-- zlib's CRC: reflected, polynomial `0xedb88320`. -/
def crc32Byte (crc : UInt32) (byte : UInt8) : UInt32 :=
  (List.range 8).foldl
    (fun crc _ => if crc &&& 1 ≠ 0 then (crc >>> 1) ^^^ 0xedb88320 else crc >>> 1)
    (crc ^^^ byte.toUInt32)

/-- zlib as far as images that are not compressed need it. -/
def storedZlib : Zlib where
  crc32 data := data.foldl crc32Byte 0xffffffff ^^^ 0xffffffff
  inflate _ _ _ := (-3, [])
  bounded _ _ _ := Nat.zero_le _

def text (characters : List Char) : List UInt8 := characters.map char

def isRawUef (data : List UInt8) : Bool :=
  10 ≤ data.length && data.take 10 == text ['U', 'E', 'F', ' ', 'F', 'i', 'l', 'e', '!'] ++ [0]

def isGzip (data : List UInt8) : Bool :=
  2 ≤ data.length && data.getD 0 0 == 0x1f && data.getD 1 0 == 0x8b

/-- An end record at `pos` that closes an archive of one entry. -/
def zipEndAt (source : List UInt8) (pos : Nat) : Bool :=
  rd32 source pos == 0x06054b50 && rd16 source (pos + 4) == 0 && rd16 source (pos + 6) == 0 &&
    rd16 source (pos + 8) == 1 && rd16 source (pos + 10) == 1 &&
    rd16 source (pos + 20) == source.length - pos - 22

def zipEndFrom (source : List UInt8) : Nat → Bool
  | 0 => zipEndAt source 0
  | pos + 1 => zipEndAt source (pos + 1) || zipEndFrom source pos

def zipHasOneEntry (source : List UInt8) : Bool :=
  if source.length < 22 then false else zipEndFrom source (source.length - 22)

def isZip (source : List UInt8) : Bool :=
  30 ≤ source.length && rd32 source 0 == 0x04034b50 && zipHasOneEntry source

/-- The fields of a local file header that the backend reads. -/
structure ZipHeader where
  flags : Nat
  method : Nat
  expectedCrc : UInt32
  compressedLength : Nat
  expectedLength : Nat
  data : Nat

def zipHeader (source : List UInt8) : ZipHeader where
  flags := rd16 source 6
  method := rd16 source 8
  expectedCrc := (rd32 source 14).toUInt32
  compressedLength := rd32 source 18
  expectedLength := rd32 source 22
  data := 30 + rd16 source 26 + rd16 source 28

def ZipHeader.refused (header : ZipHeader) (length : Nat) : Bool :=
  header.flags &&& 9 != 0 || (header.method != 0 && header.method != 8) ||
    decide (length < header.data) || decide (length - header.data < header.compressedLength)

/-- 0 on success, 1 for output overflow, -1 for malformed data; with the bytes produced. -/
def inflateBytes (z : Zlib) (capacity : Nat) (source : List UInt8) (windowBits : Int) :
    Int × List UInt8 :=
  let (result, output) := z.inflate windowBits capacity source
  if result = zBufError ∧ output.length = capacity then (1, output)
  else (if result = zStreamEnd then 0 else -1, output)

/-- Unpack the entry of an archive whose header was not refused. -/
def unpackEntry (z : Zlib) (capacity : Nat) (source : List UInt8) : Int × List UInt8 :=
  let header := zipHeader source
  let packed := (source.drop header.data).take header.compressedLength
  if header.method = 0 then
    (if header.compressedLength = header.expectedLength then 0 else -1, packed)
  else inflateBytes z capacity packed (-maxWbits)

inductive Verdict
  | raw
  | gzip
  | zip
  | invalid
  | tooLarge
deriving DecidableEq, Repr

def Verdict.accepted : Verdict → Bool
  | .raw | .gzip | .zip => true
  | .invalid | .tooLarge => false

def Verdict.message : Verdict → List UInt8
  | .raw => text ['R', 'A', 'W', '\r', '\n']
  | .gzip => text ['G', 'Z', 'I', 'P', '\r', '\n']
  | .zip => text ['Z', 'I', 'P', '\r', '\n']
  | .invalid => text ['I', 'N', 'V', 'A', 'L', 'I', 'D', '\r', '\n']
  | .tooLarge => text ['T', 'O', 'O', ' ', 'L', 'A', 'R', 'G', 'E', '\r', '\n']

structure Decoded where
  verdict : Verdict
  writes : List (List UInt8)
  output : List UInt8

/-- Inflate a gzip image after the blocks `before` have been stored. `overflow` is the
result the caller takes for an output that does not fit. -/
def unpackGzip (overflow : Int) (format : Verdict) (before : List (List UInt8)) (z : Zlib)
    (capacity : Nat) (source : List UInt8) : Decoded :=
  let unpacked := inflateBytes z capacity source (maxWbits + 16)
  let verdict :=
    if unpacked.1 = overflow then .tooLarge
    else if unpacked.1 ≠ 0 ∨ !isRawUef unpacked.2 then .invalid
    else format
  ⟨verdict, before ++ [unpacked.2], unpacked.2⟩

/-- Unpack a ZIP whose header was let through, and the gzip image it may hold. -/
def unpackZip (overflow : Int) (z : Zlib) (capacity : Nat) (source : List UInt8) : Decoded :=
  let header := zipHeader source
  let unpacked := unpackEntry z capacity source
  if unpacked.1 = overflow then ⟨.tooLarge, [unpacked.2], unpacked.2⟩
  else if unpacked.1 ≠ 0 ∨ unpacked.2.length ≠ header.expectedLength ∨
      z.crc32 unpacked.2 ≠ header.expectedCrc then ⟨.invalid, [unpacked.2], unpacked.2⟩
  else if isRawUef unpacked.2 then ⟨.zip, [unpacked.2], unpacked.2⟩
  else if isGzip unpacked.2 then unpackGzip overflow .zip [unpacked.2] z capacity unpacked.2
  else ⟨.invalid, [unpacked.2], unpacked.2⟩

/-- The tree of `normalize_uef_control`. -/
def normalizeUef (z : Zlib) (capacity : Nat) (source : List UInt8) : Decoded :=
  if isRawUef source then ⟨.raw, [], source⟩
  else if isGzip source then unpackGzip 1 .gzip [] z capacity source
  else if isZip source then
    if (zipHeader source).refused source.length then ⟨.invalid, [], []⟩
    else if capacity < (zipHeader source).expectedLength then ⟨.tooLarge, [], []⟩
    else unpackZip 1 z capacity source
  else ⟨.invalid, [], []⟩

/-- The tree of FINALIZE, which looks for `Z_BUF_ERROR` among the results of
`inflate_bytes` and checks the announced length first. -/
def finalizeUef (z : Zlib) (capacity : Nat) (source : List UInt8) : Decoded :=
  if isRawUef source then ⟨.raw, [], source⟩
  else if isGzip source then unpackGzip zBufError .gzip [] z capacity source
  else if isZip source then
    if capacity < (zipHeader source).expectedLength then ⟨.tooLarge, [], []⟩
    else if (zipHeader source).refused source.length then ⟨.invalid, [], []⟩
    else unpackZip zBufError z capacity source
  else ⟨.invalid, [], []⟩

/-- The chunk walk of `wicfs_stream_length` from `position`: `none` when the chunk list is
broken, else the end of the last `&0100` chunk, if there was one. -/
def wicfsChunks (window : List UInt8) (position : Nat) (effective : Option Nat) :
    Option (Option Nat) :=
  if position < window.length then
    if window.length - position < 6 then none
    else
      let chunkLength := rd32 window (position + 2)
      if window.length - (position + 6) < chunkLength then none
      else
        let next := position + 6 + chunkLength
        wicfsChunks window next (if rd16 window position = 0x0100 then some next else effective)
  else some effective
termination_by window.length - position

def wicfsStreamLength (window : List UInt8) : Nat :=
  if !isRawUef window ∨ window.length < 12 then window.length
  else
    match wicfsChunks window 12 none with
    | some (some effective) => effective
    | _ => window.length

theorem inflateBytes_ne_zBufError (z : Zlib) (capacity : Nat) (source : List UInt8)
    (windowBits : Int) : (inflateBytes z capacity source windowBits).1 ≠ zBufError := by
  unfold inflateBytes
  rcases z.inflate windowBits capacity source with ⟨result, output⟩
  by_cases full : result = zBufError ∧ output.length = capacity
  · simp [full, zBufError]
  · simp only [if_neg full]
    by_cases ended : result = zStreamEnd
    · simp [ended, zBufError]
    · simp [ended, zBufError]

theorem unpackEntry_ne_zBufError (z : Zlib) (capacity : Nat) (source : List UInt8) :
    (unpackEntry z capacity source).1 ≠ zBufError := by
  simp only [unpackEntry]
  split
  · split <;> simp [zBufError]
  · exact inflateBytes_ne_zBufError _ _ _ _

/-- The entry passes the checks made once it is unpacked. -/
def entryGood (z : Zlib) (capacity : Nat) (source : List UInt8) : Bool :=
  let unpacked := unpackEntry z capacity source
  !decide (unpacked.1 ≠ 0 ∨ unpacked.2.length ≠ (zipHeader source).expectedLength ∨
    z.crc32 unpacked.2 ≠ (zipHeader source).expectedCrc)

def overflows (z : Zlib) (capacity : Nat) (source : List UInt8) : Bool :=
  (inflateBytes z capacity source (maxWbits + 16)).1 == 1

/-- An image on which the two trees part: one that unpacks to more than the capacity, or a
ZIP whose refused header announces more than the capacity. -/
def normalizersPart (z : Zlib) (capacity : Nat) (source : List UInt8) : Bool :=
  (isGzip source && overflows z capacity source) ||
  (isZip source && (zipHeader source).refused source.length &&
    decide (capacity < (zipHeader source).expectedLength)) ||
  (isZip source && !(zipHeader source).refused source.length &&
    decide ((zipHeader source).expectedLength ≤ capacity) &&
    ((unpackEntry z capacity source).1 == 1 ||
      (entryGood z capacity source && isGzip (unpackEntry z capacity source).2 &&
        overflows z capacity (unpackEntry z capacity source).2)))

/-- Two outcomes compared: they are one outcome, or their verdicts differ. -/
inductive Compared : Bool → Decoded → Decoded → Prop
  | same (decoded) : Compared false decoded decoded
  | parted {left right} (differ : left.verdict ≠ right.verdict) : Compared true left right

theorem raw_first {data : List UInt8} (raw : isRawUef data = true) : data.getD 0 0 = 0x55 := by
  match data with
  | [] => simp [isRawUef] at raw
  | first :: rest =>
    simp only [isRawUef, text, Bool.and_eq_true, beq_iff_eq, List.take_succ_cons, List.map_cons,
      List.cons_append, List.cons.injEq] at raw
    exact raw.2.1

theorem gzip_first {data : List UInt8} (gzip : isGzip data = true) : data.getD 0 0 = 0x1f := by
  simp only [isGzip, Bool.and_eq_true, beq_iff_eq] at gzip
  exact gzip.1.2

theorem zip_first {data : List UInt8} (zip : isZip data = true) : data.getD 0 0 = 0x50 := by
  simp only [isZip, rd32, Bool.and_eq_true, beq_iff_eq] at zip
  have sum := zip.1.2
  have small := UInt8.toNat_lt (data.getD 0 0)
  apply UInt8.toNat.inj
  change _ = 0x50
  omega

theorem raw_not_gzip {data : List UInt8} (raw : isRawUef data = true) : isGzip data = false := by
  refine Bool.eq_false_iff.mpr fun gzip => ?_
  have first := raw_first raw
  rw [gzip_first gzip] at first
  exact absurd first (by decide)

theorem raw_not_zip {data : List UInt8} (raw : isRawUef data = true) : isZip data = false := by
  refine Bool.eq_false_iff.mpr fun zip => ?_
  have first := raw_first raw
  rw [zip_first zip] at first
  exact absurd first (by decide)

theorem gzip_not_zip {data : List UInt8} (gzip : isGzip data = true) : isZip data = false := by
  refine Bool.eq_false_iff.mpr fun zip => ?_
  have first := gzip_first gzip
  rw [zip_first zip] at first
  exact absurd first (by decide)

/-- Where the results of `inflate_bytes` are read differently, only overflow matters. -/
theorem unpackGzip_compared (format : Verdict) (before : List (List UInt8)) (z : Zlib)
    (capacity : Nat) (source : List UInt8) :
    Compared (overflows z capacity source) (unpackGzip 1 format before z capacity source)
      (unpackGzip zBufError format before z capacity source) := by
  have coded := inflateBytes_ne_zBufError z capacity source (maxWbits + 16)
  simp only [unpackGzip, overflows, if_neg coded]
  by_cases tooLong : (inflateBytes z capacity source (maxWbits + 16)).1 = 1
  · simp only [tooLong, if_true, beq_self_eq_true]
    exact .parted (by simp)
  · simp only [beq_eq_false_iff_ne.mpr tooLong, if_neg tooLong]
    exact .same _

theorem unpackZip_compared (z : Zlib) (capacity : Nat) (source : List UInt8) :
    Compared
      ((unpackEntry z capacity source).1 == 1 ||
        (entryGood z capacity source && isGzip (unpackEntry z capacity source).2 &&
          overflows z capacity (unpackEntry z capacity source).2))
      (unpackZip 1 z capacity source) (unpackZip zBufError z capacity source) := by
  have coded := unpackEntry_ne_zBufError z capacity source
  simp only [unpackZip, if_neg coded]
  by_cases tooLong : (unpackEntry z capacity source).1 = 1
  · simp only [tooLong, if_true, beq_self_eq_true, Bool.true_or, ne_eq, Int.one_ne_zero,
      not_false_eq_true, true_or]
    exact .parted (by simp)
  simp only [beq_eq_false_iff_ne.mpr tooLong, if_neg tooLong, Bool.false_or]
  by_cases failed : (unpackEntry z capacity source).1 ≠ 0 ∨
      (unpackEntry z capacity source).2.length ≠ (zipHeader source).expectedLength ∨
      z.crc32 (unpackEntry z capacity source).2 ≠ (zipHeader source).expectedCrc
  · have good : entryGood z capacity source = false := by simp [entryGood, failed]
    simp only [if_pos failed, good, Bool.false_and]
    exact .same _
  have good : entryGood z capacity source = true := by simp [entryGood, failed]
  simp only [if_neg failed, good, Bool.true_and]
  by_cases raw : isRawUef (unpackEntry z capacity source).2 = true
  · simp only [if_pos raw, raw_not_gzip raw, Bool.false_and]
    exact .same _
  by_cases gzip : isGzip (unpackEntry z capacity source).2 = true
  · simp only [if_neg raw, gzip, if_true, Bool.true_and]
    exact unpackGzip_compared _ _ _ _ _
  · simp only [if_neg raw, gzip, Bool.false_and]
    exact .same _

/-- The two trees have one outcome on every image except those on which they part. -/
theorem normalizers_compared (z : Zlib) (capacity : Nat) (source : List UInt8) :
    Compared (normalizersPart z capacity source) (normalizeUef z capacity source)
      (finalizeUef z capacity source) := by
  simp only [normalizeUef, finalizeUef, normalizersPart]
  by_cases raw : isRawUef source = true
  · simp only [if_pos raw, raw_not_gzip raw, raw_not_zip raw, Bool.false_and, Bool.or_self]
    exact .same _
  by_cases gzip : isGzip source = true
  · simp only [if_neg raw, gzip, gzip_not_zip gzip, Bool.true_and, Bool.false_and,
      Bool.or_false]
    exact unpackGzip_compared _ _ _ _ _
  simp only [if_neg raw, gzip, Bool.false_and, Bool.false_or]
  by_cases zip : isZip source = true
  · simp only [zip, Bool.true_and]
    by_cases large : capacity < (zipHeader source).expectedLength
    · by_cases refused : (zipHeader source).refused source.length = true
      · simp only [refused, large, decide_true, Bool.and_self,
          Bool.true_or]
        exact .parted (by simp)
      · simp only [if_pos large, refused, Nat.not_le.mpr large, decide_false,
          Bool.false_and, Bool.and_false, Bool.or_self]
        exact .same _
    · by_cases refused : (zipHeader source).refused source.length = true
      · simp only [refused, large, decide_false, Bool.and_false,
          Bool.not_true, Bool.false_and, Bool.or_self]
        exact .same _
      · simp only [if_neg large, refused, Nat.le_of_not_lt large, decide_true,
          Bool.not_false, Bool.true_and, Bool.false_and, Bool.false_or]
        exact unpackZip_compared _ _ _
  · simp only [zip, Bool.false_and, Bool.or_self]
    exact .same _

/-- What an accepted image is: raw, within the capacity or the upload, and what was stored
last. -/
structure Accepted (capacity : Nat) (source : List UInt8) (decoded : Decoded) : Prop where
  raw : isRawUef decoded.output = true
  length : decoded.output.length ≤ max capacity source.length
  stored : decoded.writes = [] ∧ decoded.output = source ∨
    ∃ before, decoded.writes = before ++ [decoded.output]

theorem inflateBytes_length (z : Zlib) (capacity : Nat) (source : List UInt8) (windowBits : Int) :
    (inflateBytes z capacity source windowBits).2.length ≤ capacity := by
  have bounded := z.bounded windowBits capacity source
  unfold inflateBytes
  revert bounded
  rcases z.inflate windowBits capacity source with ⟨result, output⟩
  intro bounded
  by_cases full : result = zBufError ∧ output.length = capacity
  · simpa only [if_pos full] using bounded
  · simpa only [if_neg full] using bounded

theorem unpackEntry_length (z : Zlib) (capacity : Nat) (source : List UInt8) :
    (unpackEntry z capacity source).2.length ≤ max capacity source.length := by
  simp only [unpackEntry]
  split
  · simp only [List.length_take, List.length_drop]
    omega
  · exact Nat.le_trans (inflateBytes_length _ _ _ _) (Nat.le_max_left _ _)

theorem unpackGzip_accepted {overflow : Int} {format : Verdict} {before : List (List UInt8)}
    {z : Zlib} {capacity : Nat} {source : List UInt8} (origin : List UInt8)
    (accepted : (unpackGzip overflow format before z capacity source).verdict.accepted = true) :
    Accepted capacity origin (unpackGzip overflow format before z capacity source) := by
  refine ⟨?_, Nat.le_trans (inflateBytes_length _ _ _ _) (Nat.le_max_left _ _), Or.inr ⟨_, rfl⟩⟩
  simp only [unpackGzip] at accepted ⊢
  split at accepted
  · cases accepted
  · split at accepted
    · cases accepted
    · rename_i good
      simp only [not_or, Bool.not_eq_true, Bool.not_eq_false'] at good
      exact good.2

theorem unpackZip_accepted {overflow : Int} {z : Zlib} {capacity : Nat} {source : List UInt8}
    (accepted : (unpackZip overflow z capacity source).verdict.accepted = true) :
    Accepted capacity source (unpackZip overflow z capacity source) := by
  simp only [unpackZip] at accepted ⊢
  split
  · rename_i tooLong
    simp [tooLong, Verdict.accepted] at accepted
  split
  · rename_i tooLong failed
    rw [if_neg tooLong, if_pos failed] at accepted
    cases accepted
  split
  · rename_i raw
    exact ⟨raw, unpackEntry_length _ _ _, Or.inr ⟨[], rfl⟩⟩
  split
  · rename_i tooLong failed raw gzip
    rw [if_neg tooLong, if_neg failed, if_neg raw, if_pos gzip] at accepted
    exact unpackGzip_accepted source accepted
  · rename_i tooLong failed raw gzip
    rw [if_neg tooLong, if_neg failed, if_neg raw, if_neg gzip] at accepted
    cases accepted

theorem finalizeUef_accepted {z : Zlib} {capacity : Nat} {source : List UInt8}
    (accepted : (finalizeUef z capacity source).verdict.accepted = true) :
    Accepted capacity source (finalizeUef z capacity source) := by
  simp only [finalizeUef] at accepted ⊢
  by_cases raw : isRawUef source = true
  · rw [if_pos raw]
    exact ⟨raw, Nat.le_max_right _ _, Or.inl ⟨rfl, rfl⟩⟩
  rw [if_neg raw] at accepted ⊢
  by_cases gzip : isGzip source = true
  · rw [if_pos gzip] at accepted ⊢
    exact unpackGzip_accepted source accepted
  rw [if_neg gzip] at accepted ⊢
  split at accepted
  · rename_i zip
    rw [if_pos zip]
    split at accepted
    · cases accepted
    · rename_i large
      rw [if_neg large]
      split at accepted
      · cases accepted
      · rename_i refused
        rw [if_neg refused]
        exact unpackZip_accepted accepted
  · cases accepted

theorem normalizeUef_accepted {z : Zlib} {capacity : Nat} {source : List UInt8}
    (accepted : (normalizeUef z capacity source).verdict.accepted = true) :
    Accepted capacity source (normalizeUef z capacity source) := by
  simp only [normalizeUef] at accepted ⊢
  by_cases raw : isRawUef source = true
  · rw [if_pos raw]
    exact ⟨raw, Nat.le_max_right _ _, Or.inl ⟨rfl, rfl⟩⟩
  rw [if_neg raw] at accepted ⊢
  by_cases gzip : isGzip source = true
  · rw [if_pos gzip] at accepted ⊢
    exact unpackGzip_accepted source accepted
  rw [if_neg gzip] at accepted ⊢
  split at accepted
  · rename_i zip
    rw [if_pos zip]
    split at accepted
    · cases accepted
    · rename_i refused
      rw [if_neg refused]
      split at accepted
      · cases accepted
      · rename_i large
        rw [if_neg large]
        exact unpackZip_accepted accepted
  · cases accepted

end Pi1MHz.NetBackend
