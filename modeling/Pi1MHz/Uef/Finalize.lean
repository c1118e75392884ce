import Pi1MHz.Uef.Bounds

/-! FINALIZE unpacks into the buffer that holds the upload. A refused image is still there
for the next FINALIZE unless what was unpacked before the refusal differs from it. The two
normalizers are compared at the end. -/
namespace Pi1MHz.NetBackend
open UefRepair

def upload (s : UefState) : List UInt8 := s.stream.read 0 s.streamLength

/-- FINALIZE gets as far as looking at the upload. -/
def begun (s : UefState) (request : Request) : Bool :=
  s.uploadActive && request.tokenFor s == s.streamToken && s.streamLength != 0

/-- Bytes stored over the front of the upload that are not the upload's own. -/
def differs (written upload : List UInt8) : Bool :=
  written.take upload.length != upload.take written.length

def gzipBad (z : Zlib) (capacity : Nat) (source : List UInt8) : Bool :=
  let unpacked := inflateBytes z capacity source (maxWbits + 16)
  unpacked.1 != 0 || !isRawUef unpacked.2

/-- A bad archive or gzip image that gets unpacked, with bytes that differ from the upload
it is unpacked over. -/
def spoils (z : Zlib) (capacity : Nat) (upload : List UInt8) : Bool :=
  let inflated source := (inflateBytes z capacity source (maxWbits + 16)).2
  let entry := (unpackEntry z capacity upload).2
  (isGzip upload && gzipBad z capacity upload && differs (inflated upload) upload) ||
  (isZip upload && decide ((zipHeader upload).expectedLength ≤ capacity) &&
    !(zipHeader upload).refused upload.length &&
    (if entryGood z capacity upload && isGzip entry then
      gzipBad z capacity entry &&
        differs (inflated entry ++ entry.drop (inflated entry).length) upload
    else !(entryGood z capacity upload && isRawUef entry) && differs entry upload))

/-- What a refusal must leave alone. -/
structure Untouched (s t : UefState) : Prop where
  bytes : t.stream.read 0 s.streamLength = s.stream.read 0 s.streamLength
  length : t.streamLength = s.streamLength
  generation : t.windowGeneration = s.windowGeneration
  active : t.uploadActive = s.uploadActive
  ready : t.streamReady = s.streamReady

/-- The replies to FINALIZE sent again and again. -/
def replies (z : Zlib) (request : Request) : UefState → List Jim → List Reply
  | _, [] => []
  | s, jim :: rest =>
    let outcome := uefFinalize z uefStreamCapacity s jim request
    outcome.1 :: replies z request outcome.2.1 rest

/-- A refusal leaves the upload as it was, and so it is refused in the same way however
often FINALIZE is sent. -/
def RejectionAtomic (z : Zlib) (s : UefState) (request : Request) : Prop :=
  ∀ jim, let outcome := uefFinalize z uefStreamCapacity s jim request
    outcome.1 ≠ .stream →
      Untouched s outcome.2.1 ∧ ∀ jims, ∀ later ∈ replies z request outcome.2.1 jims,
        later = outcome.1

theorem write_keeps_iff (buffer : Memory UInt8) (block : List UInt8) (length : Nat) :
    (buffer.write 0 block).read 0 length = buffer.read 0 length ↔
      differs block (buffer.read 0 length) = false := by
  rw [Memory.read_write_front]
  generalize held : buffer.read 0 length = bytes
  have size : bytes.length = length := by rw [← held, Memory.read_length]
  simp only [differs, bne_eq_false_iff_eq, size]
  by_cases short : block.length ≤ length
  · rw [List.take_of_length_le (by simp; omega), List.take_of_length_le short]
    constructor
    · intro whole
      conv => rhs; rw [← whole]
      simp
    · intro front
      rw [front]
      simp only [List.length_take, size, Nat.min_eq_left short, List.take_append_drop]
  · rw [List.drop_eq_nil_of_le (by omega), List.append_nil, List.take_of_length_le (l := bytes) (by omega)]

theorem unpackGzip_rejected (z : Zlib) (capacity : Nat) (source : List UInt8) {format : Verdict}
    (accepting : format.accepted = true) (before : List (List UInt8)) :
    (unpackGzip zBufError format before z capacity source).verdict.accepted =
      !gzipBad z capacity source := by
  have coded := inflateBytes_ne_zBufError z capacity source (maxWbits + 16)
  simp only [unpackGzip, gzipBad, if_neg coded]
  by_cases bad : (inflateBytes z capacity source (maxWbits + 16)).1 ≠ 0 ∨
      (!isRawUef (inflateBytes z capacity source (maxWbits + 16)).2) = true
  · rw [if_pos bad]
    rcases bad with code | shape
    · simp [code, Verdict.accepted]
    · simp [shape, Verdict.accepted]
  · rw [if_neg bad, accepting]
    simp only [not_or, ne_eq, Decidable.not_not] at bad
    simp [bad.1, bad.2]

/-- A refused ZIP keeps the upload unless its entry, or the gzip image inside it, differs. -/
theorem unpackZip_keeps_iff (z : Zlib) (capacity : Nat) (buffer : Memory UInt8) (length : Nat) :
    let held := buffer.read 0 length
    let entry := (unpackEntry z capacity held).2
    let inner := (inflateBytes z capacity entry (maxWbits + 16)).2
    let decoded := unpackZip zBufError z capacity held
    (decoded.verdict.accepted = false →
        (overlay decoded.writes buffer).read 0 length = buffer.read 0 length) ↔
      (if entryGood z capacity held && isGzip entry then
        gzipBad z capacity entry && differs (inner ++ entry.drop inner.length) held
      else !(entryGood z capacity held && isRawUef entry) && differs entry held) = false := by
  intro held entry inner decoded
  have coded := unpackEntry_ne_zBufError z capacity held
  simp only [decoded, unpackZip, if_neg coded]
  by_cases failed : (unpackEntry z capacity held).1 ≠ 0 ∨
      (unpackEntry z capacity held).2.length ≠ (zipHeader held).expectedLength ∨
      z.crc32 (unpackEntry z capacity held).2 ≠ (zipHeader held).expectedCrc
  · have good : entryGood z capacity held = false := by simp [entryGood, failed]
    simp only [if_pos failed, good, Verdict.accepted, forall_const, Bool.false_and,
      Bool.false_eq_true, if_false, Bool.not_false, Bool.true_and]
    exact write_keeps_iff buffer entry length
  have good : entryGood z capacity held = true := by simp [entryGood, failed]
  simp only [if_neg failed, good, Bool.true_and]
  by_cases raw : isRawUef entry = true
  · have gzip := raw_not_gzip raw
    simp only [entry] at raw gzip ⊢
    simp [raw, gzip, Verdict.accepted]
  by_cases gzip : isGzip entry = true
  · rw [if_neg raw, if_pos gzip, if_pos gzip, unpackGzip_rejected z capacity entry rfl]
    have twice := write_keeps_iff buffer (inner ++ entry.drop inner.length) length
    rw [← Memory.write_write] at twice
    cases bad : gzipBad z capacity entry with
    | true =>
      simp only [Bool.not_true, forall_const, Bool.true_and]
      exact twice
    | false => simp
  · rw [if_neg raw, if_neg gzip, if_neg gzip]
    have raw' : isRawUef entry = false := by simpa using raw
    simp only [Verdict.accepted, forall_const, raw', Bool.not_false, Bool.true_and]
    exact write_keeps_iff buffer entry length

/-- A refused image is kept exactly when it does not spoil itself. -/
theorem finalizeUef_keeps_iff (z : Zlib) (capacity : Nat) (buffer : Memory UInt8) (length : Nat) :
    let decoded := finalizeUef z capacity (buffer.read 0 length)
    (decoded.verdict.accepted = false →
        (overlay decoded.writes buffer).read 0 length = buffer.read 0 length) ↔
      spoils z capacity (buffer.read 0 length) = false := by
  intro decoded
  have zipped := unpackZip_keeps_iff z capacity buffer length
  have inflated := write_keeps_iff buffer
    (inflateBytes z capacity (buffer.read 0 length) (maxWbits + 16)).2 length
  simp only [decoded, finalizeUef, spoils]
  generalize source : buffer.read 0 length = held at zipped inflated ⊢
  have unwritten : (overlay [] buffer).read 0 length = held := source
  by_cases raw : isRawUef held = true
  · rw [if_pos raw]
    simp [raw_not_gzip raw, raw_not_zip raw, Verdict.accepted]
  rw [if_neg raw]
  by_cases gzip : isGzip held = true
  · rw [if_pos gzip, unpackGzip_rejected z capacity held rfl, gzip_not_zip gzip]
    simp only [gzip, Bool.false_and, Bool.or_false, Bool.true_and]
    cases bad : gzipBad z capacity held with
    | true =>
      simp only [Bool.not_true, forall_const, Bool.true_and]
      exact inflated
    | false => simp
  rw [if_neg gzip]
  simp only [gzip, Bool.false_and, Bool.false_or]
  by_cases zip : isZip held = true
  · rw [if_pos zip]
    by_cases large : capacity < (zipHeader held).expectedLength
    · rw [if_pos large]
      exact iff_of_true (fun _ => unwritten) (by simp [Nat.not_le.mpr large])
    rw [if_neg large]
    by_cases refused : (zipHeader held).refused held.length = true
    · rw [if_pos refused]
      exact iff_of_true (fun _ => unwritten) (by simp [refused])
    rw [if_neg refused]
    simpa only [zip, refused, Nat.le_of_not_lt large, decide_true, Bool.true_and, Bool.not_false]
      using zipped
  · rw [if_neg zip]
    exact iff_of_true (fun _ => unwritten) (by simp [zip])

theorem uefFinalize_refused {z : Zlib} {capacity : Nat} {s : UefState} {request : Request}
    (jim : Jim) (idle : begun s request = false) :
    uefFinalize z capacity s jim request = (.refused, s, jim) := by
  rw [uefFinalize, if_pos]
  simp only [begun, Bool.and_eq_false_iff, beq_eq_false_iff_ne, bne_eq_false_iff_eq] at idle
  rcases idle with (inactive | token) | empty
  · exact Or.inl (by simp [inactive])
  · exact Or.inr (Or.inl token)
  · exact Or.inr (Or.inr empty)

theorem begun_not_refused {s : UefState} {request : Request} (started : begun s request = true) :
    ¬((!s.uploadActive) = true ∨ request.tokenFor s ≠ s.streamToken ∨ s.streamLength = 0) := by
  simp only [begun, Bool.and_eq_true, beq_iff_eq, bne_iff_ne] at started
  simp [started]

theorem uefFinalize_rejected {z : Zlib} {capacity : Nat} {s : UefState} {request : Request}
    (jim : Jim) (started : begun s request = true)
    (rejected : (finalizeUef z capacity (upload s)).verdict.accepted = false) :
    uefFinalize z capacity s jim request =
      (.verdict (finalizeUef z capacity (upload s)).verdict,
        { s with stream := overlay (finalizeUef z capacity (upload s)).writes s.stream }, jim) := by
  rw [uefFinalize, if_neg (begun_not_refused started)]
  simp only [upload] at rejected ⊢
  simp only [rejected, Bool.false_eq_true, if_false]

theorem uefFinalize_accepted {z : Zlib} {capacity : Nat} {s : UefState} {request : Request}
    (jim : Jim) (started : begun s request = true)
    (accepted : (finalizeUef z capacity (upload s)).verdict.accepted = true) :
    (uefFinalize z capacity s jim request).1 = .stream := by
  rw [uefFinalize, if_neg (begun_not_refused started)]
  simp only [upload] at accepted ⊢
  simp only [accepted, if_true]

/-- A state in which FINALIZE answers `reply` and gets back to such a state. -/
inductive Refuses (z : Zlib) (request : Request) (reply : Reply) (s : UefState) : Prop
  | early (idle : begun s request = false) (same : reply = .refused)
  | late (started : begun s request = true)
      (rejected : (finalizeUef z uefStreamCapacity (upload s)).verdict.accepted = false)
      (kept : spoils z uefStreamCapacity (upload s) = false)
      (same : reply = .verdict (finalizeUef z uefStreamCapacity (upload s)).verdict)

theorem Refuses.step {z : Zlib} {request : Request} {reply : Reply} {s : UefState}
    (refuses : Refuses z request reply s) (jim : Jim) :
    (uefFinalize z uefStreamCapacity s jim request).1 = reply ∧
      Untouched s (uefFinalize z uefStreamCapacity s jim request).2.1 ∧
      Refuses z request reply (uefFinalize z uefStreamCapacity s jim request).2.1 := by
  cases refuses with
  | early idle same =>
    rw [uefFinalize_refused jim idle]
    exact ⟨same.symm, ⟨rfl, rfl, rfl, rfl, rfl⟩, .early idle same⟩
  | late started rejected kept same =>
    have bytes := (finalizeUef_keeps_iff z uefStreamCapacity s.stream s.streamLength).mpr kept rejected
    rw [uefFinalize_rejected jim started rejected]
    refine ⟨same.symm, ⟨bytes, rfl, rfl, rfl, rfl⟩, ?_⟩
    have again : upload { s with
        stream := overlay (finalizeUef z uefStreamCapacity (upload s)).writes s.stream } =
        upload s := bytes
    exact .late started (by rw [again]; exact rejected) (by rw [again]; exact kept)
      (by rw [again]; exact same)

theorem Refuses.replies {z : Zlib} {request : Request} {reply : Reply} {s : UefState}
    (refuses : Refuses z request reply s) (jims : List Jim) :
    ∀ later ∈ replies z request s jims, later = reply := by
  induction jims generalizing s with
  | nil => simp [NetBackend.replies]
  | cons jim rest ih =>
    obtain ⟨first, _, next⟩ := refuses.step jim
    intro later member
    simp only [NetBackend.replies, List.mem_cons] at member
    rcases member with now | after
    · rw [now, first]
    · exact ih next later after

/-- A refused FINALIZE is atomic exactly when the refused image does not spoil the upload. -/
theorem rejection_atomic_iff (z : Zlib) (s : UefState) (request : Request) :
    RejectionAtomic z s request ↔
      (begun s request && spoils z uefStreamCapacity (upload s)) = false := by
  cases started : begun s request with
  | false =>
    refine iff_of_true (fun jim _ => ?_) (by simp)
    have refuses : Refuses z request .refused s := .early started rfl
    obtain ⟨first, untouched, next⟩ := refuses.step jim
    exact ⟨untouched, first.symm ▸ next.replies⟩
  | true =>
    rw [Bool.true_and]
    have keeps := finalizeUef_keeps_iff z uefStreamCapacity s.stream s.streamLength
    constructor
    · intro atomic
      refine keeps.mp fun rejected => ?_
      have untouched := atomic (fun _ => 0)
      rw [uefFinalize_rejected _ started rejected] at untouched
      exact (untouched (by simp)).1.bytes
    · intro kept jim outcome refused
      cases accepted : (finalizeUef z uefStreamCapacity (upload s)).verdict.accepted with
      | true => exact absurd (uefFinalize_accepted jim started accepted) refused
      | false =>
        have refuses : Refuses z request _ s := .late started accepted kept rfl
        obtain ⟨first, untouched, next⟩ := refuses.step jim
        exact ⟨untouched, first.symm ▸ next.replies⟩

/-- A stored archive of one tape whose header has the wrong checksum. -/
def badArchive : List UInt8 :=
  le32 0x04034b50 ++ [10, 0, 0, 0, 0, 0, 0, 0, 0, 0] ++ le32 0 ++ le32 12 ++ le32 12 ++
    [0, 0, 0, 0] ++ emptyTape ++ le32 0x06054b50 ++ [0, 0, 0, 0, 1, 0, 1, 0] ++ le32 0 ++ le32 0 ++
    [0, 0]

def finalizeRequest : Request := ⟨3, 0, 0, 0, 0⟩

/-- The archive uploaded in one piece. -/
def uploaded (bytes : List UInt8) : UefState :=
  { create false true with
    stream := Memory.write (fun _ => 0) 0 bytes
    streamLength := bytes.length
    streamToken := 1
    windowGeneration := 1
    lastAppendLength := bytes.length.toUInt16
    lastAppendCrc := storedZlib.crc32 bytes
    uploadActive := true }

theorem rejected_archive_accepted_again :
    ¬ RejectionAtomic storedZlib (uploaded badArchive) finalizeRequest := by
  intro atomic
  obtain ⟨_, again⟩ := atomic (fun _ => 0) (by decide +kernel)
  have second := again [fun _ => 0] .stream (by decide +kernel)
  exact absurd second (by decide +kernel)

/-- What is kept of an accepted image. -/
def retained (filevRepair : Bool) (image : List UInt8) : List UInt8 :=
  if filevRepair then (uefRepairFilevStamp image).1 else image

theorem repairStream_upload (s : UefState) :
    upload (repairStream s) = retained s.filevRepair (upload s) := by
  simp only [repairStream, retained]
  split
  · exact Memory.read_write_of_length s.stream 0
      (by rw [uefRepairFilevStamp_length, Memory.read_length])
  · rfl

/-- The classification a host reads off the reply: the text, or the format byte of the
stream record. -/
def classify : Reply × UefState × Jim → Option Verdict
  | (.refused, _, _) => none
  | (.verdict verdict, _, _) => some verdict
  | (.stream, s, _) => [Verdict.raw, .gzip, .zip].find? (fun verdict => verdict.format == s.streamFormat)

theorem format_found {verdict : Verdict} (accepted : verdict.accepted = true) :
    [Verdict.raw, .gzip, .zip].find? (fun other => other.format == verdict.format) =
      some verdict := by
  cases verdict with
  | raw => decide
  | gzip => decide
  | zip => decide
  | invalid => cases accepted
  | tooLarge => cases accepted

theorem repairStream_format (s : UefState) : (repairStream s).streamFormat = s.streamFormat := by
  rw [repairStream_eq]

/-- One image given to both entry points: in the window for the legacy command, with tail
trimming off, and uploaded for FINALIZE. -/
structure GivenToBoth (source : List UInt8) (s : UefState) (jim : Jim) (t : UefState)
    (request : Request) : Prop where
  trim : s.trimTail = false
  repair : s.filevRepair = t.filevRepair
  nonempty : source ≠ []
  fits : source.length ≤ uefCapacity
  length : trailer jim = source.length
  window : jim.read 0 source.length = source
  started : begun t request = true
  uploaded : upload t = source

/-- The same classification and, on acceptance, the same retained bytes. -/
def NormalizersAgree (z : Zlib) (capacity : Nat) (s : UefState) (jim : Jim) (t : UefState)
    (jim' : Jim) (request : Request) : Prop :=
  let legacy := normalizeUefControl z capacity s jim
  let final := uefFinalize z capacity t jim' request
  classify legacy = classify final ∧
    ∀ verdict, classify legacy = some verdict → verdict.accepted = true →
      upload legacy.2.1 = upload final.2.1

theorem legacy_outcome (z : Zlib) (capacity : Nat) {source : List UInt8} {s t : UefState}
    {jim : Jim} {request : Request} (given : GivenToBoth source s jim t request) :
    classify (normalizeUefControl z capacity s jim) =
        some (normalizeUef z capacity source).verdict ∧
      ((normalizeUef z capacity source).verdict.accepted = true →
        upload (normalizeUefControl z capacity s jim).2.1 =
          retained s.filevRepair (normalizeUef z capacity source).output) := by
  have nonzero := List.length_pos_iff.mpr given.nonempty
  have fits := given.fits
  have bounds : ¬(source.length = 0 ∨ uefCapacity < source.length) := by omega
  simp only [normalizeUefControl, given.length, if_neg bounds, given.window, given.trim,
    Bool.false_eq_true, if_false]
  generalize kept : normalizeUef z capacity source = decoded
  by_cases accepted : decoded.verdict.accepted = true
  · rw [if_pos accepted]
    refine ⟨rfl, fun _ => ?_⟩
    have image := overlay_image jim (kept ▸ normalizeUef_accepted (kept ▸ accepted)) given.window
    rw [image, List.take_length]
    change upload (repairStream _) = _
    rw [repairStream_upload]
    change retained s.filevRepair (Memory.read _ 0 _) = _
    rw [Memory.read_write]
  · rw [if_neg accepted]
    exact ⟨rfl, fun good => absurd good accepted⟩

theorem final_outcome (z : Zlib) (capacity : Nat) {source : List UInt8} {s t : UefState}
    {jim : Jim} {request : Request} (given : GivenToBoth source s jim t request) (jim' : Jim) :
    classify (uefFinalize z capacity t jim' request) =
        some (finalizeUef z capacity source).verdict ∧
      ((finalizeUef z capacity source).verdict.accepted = true →
        upload (uefFinalize z capacity t jim' request).2.1 =
          retained t.filevRepair (finalizeUef z capacity source).output) := by
  have held : t.stream.read 0 t.streamLength = source := given.uploaded
  have length : t.streamLength = source.length := by rw [← held, Memory.read_length]
  rw [uefFinalize, if_neg (begun_not_refused given.started)]
  simp only [held]
  generalize kept : finalizeUef z capacity source = decoded
  by_cases accepted : decoded.verdict.accepted = true
  · rw [if_pos accepted]
    have image := overlay_image t.stream
      (kept ▸ finalizeUef_accepted (kept ▸ accepted)) (length ▸ held)
    refine ⟨?_, fun _ => ?_⟩
    · simp only [classify, uefStreamPublish, repairStream_format]
      exact format_found accepted
    · change upload (repairStream _) = _
      rw [repairStream_upload]
      change retained t.filevRepair (Memory.read _ 0 _) = _
      rw [image]
  · rw [if_neg accepted]
    exact ⟨rfl, fun good => absurd good accepted⟩

/-- The two normalizers agree on exactly the images on which their trees do not part. -/
theorem normalizers_agree_iff {source : List UInt8} {s t : UefState} {jim : Jim}
    {request : Request} (given : GivenToBoth source s jim t request) (z : Zlib) (capacity : Nat)
    (jim' : Jim) :
    NormalizersAgree z capacity s jim t jim' request ↔ normalizersPart z capacity source = false := by
  obtain ⟨legacy, legacyImage⟩ := legacy_outcome z capacity given
  obtain ⟨final, finalImage⟩ := final_outcome z capacity given jim'
  have compared := normalizers_compared z capacity source
  simp only [NormalizersAgree, legacy, final, Option.some.injEq]
  generalize normalizersPart z capacity source = part at compared ⊢
  generalize normalizeUef z capacity source = left at compared legacyImage ⊢
  generalize finalizeUef z capacity source = right at compared finalImage ⊢
  cases compared with
  | same decoded =>
    refine iff_of_true ⟨rfl, ?_⟩ rfl
    rintro verdict rfl accepted
    rw [legacyImage accepted, finalImage accepted, given.repair]
  | parted differ => exact iff_of_false (fun agree => differ agree.1) (by simp)

/-- A stored archive of a tape of one block. -/
def vectorArchive : List UInt8 :=
  le32 0x04034b50 ++ [10, 0, 0, 0, 0, 0, 0, 0, 0, 0] ++ le32 3900225158 ++ le32 47 ++ le32 47 ++
    [0, 0, 0, 0] ++ emptyTape ++ fileBlock 0 0x80 (text ['?', '&', '2', '1', '2']) ++ le32 0x06054b50 ++
    [0, 0, 0, 0, 1, 0, 1, 0] ++ le32 0 ++ le32 0 ++ [0, 0]

def BothNormalize (source : List UInt8) : Prop :=
  NormalizersAgree storedZlib uefCapacity (create false true)
    (prepared [elkwifiCmdUefNormalize] source source.length).jim (uploaded source) (fun _ => 0)
    finalizeRequest

theorem normalizers_agree_iff_archived :
    BothNormalize vectorTape ∧ BothNormalize vectorArchive ∧
      (uefFinalize storedZlib uefCapacity (uploaded vectorArchive) (fun _ => 0)
        finalizeRequest).1 = .stream := by
  have raw : GivenToBoth vectorTape (create false true)
      (prepared [elkwifiCmdUefNormalize] vectorTape vectorTape.length).jim (uploaded vectorTape)
      finalizeRequest := by
    constructor <;> decide +kernel
  have zipped : GivenToBoth vectorArchive (create false true)
      (prepared [elkwifiCmdUefNormalize] vectorArchive vectorArchive.length).jim
      (uploaded vectorArchive) finalizeRequest := by
    constructor <;> decide +kernel
  exact ⟨(normalizers_agree_iff raw _ _ _).mpr (by decide +kernel),
    (normalizers_agree_iff zipped _ _ _).mpr (by decide +kernel), by decide +kernel⟩

/-- An encrypted archive that announces four gigabytes. -/
def encryptedArchive : List UInt8 :=
  le32 0x04034b50 ++ [10, 0, 1, 0, 0, 0, 0, 0, 0, 0] ++ le32 0 ++ le32 0 ++ le32 0xffffffff ++
    [0, 0, 0, 0] ++ le32 0x06054b50 ++ [0, 0, 0, 0, 1, 0, 1, 0] ++ le32 0 ++ le32 0 ++ [0, 0]

theorem normalizers_part_on_encrypted :
    GivenToBoth encryptedArchive (create false true)
        (prepared [elkwifiCmdUefNormalize] encryptedArchive 52).jim (uploaded encryptedArchive)
        finalizeRequest ∧
      ¬ NormalizersAgree storedZlib uefCapacity (create false true)
        (prepared [elkwifiCmdUefNormalize] encryptedArchive 52).jim (uploaded encryptedArchive)
        (fun _ => 0) finalizeRequest := by
  refine ⟨?_, fun agree => absurd agree.1 (by decide +kernel)⟩
  constructor <;> decide +kernel

end Pi1MHz.NetBackend
