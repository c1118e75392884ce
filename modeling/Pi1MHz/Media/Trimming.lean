import Pi1MHz.Media.Agreement
import Pi1MHz.Media.UefMap
import Pi1MHz.Uef.Normalize

/-! The cut behind the last `&0100` chunk (`wicfs_stream_length`) against the length that
`uef_map.py` reports and against both walks of the catalogue. -/
namespace Pi1MHz.MediaCatalogue
open UefRepair (rd16 rd32 tapeCrc)
open NetBackend (isRawUef wicfsChunks wicfsStreamLength)
open UefMap (UefError ChunkRecord Report inspectCfsBlock inspectChunks inspectUef Sized)

section Front

variable {image : List UInt8} {n i start count : Nat}

theorem getD_take (inside : i < n) : (image.take n).getD i 0 = image.getD i 0 := by
  rw [List.getD_eq_getElem?_getD, List.getD_eq_getElem?_getD, List.getElem?_take_of_lt inside]

theorem rd16_take (inside : i + 2 ≤ n) : rd16 (image.take n) i = rd16 image i := by
  rw [rd16, rd16, getD_take (by omega), getD_take (by omega)]

theorem rd32_take (inside : i + 4 ≤ n) : rd32 (image.take n) i = rd32 image i := by
  simp only [rd32]
  rw [getD_take (by omega), getD_take (by omega), getD_take (by omega), getD_take (by omega)]

theorem slice_take (inside : start + count ≤ n) :
    slice (image.take n) start count = slice image start count := by
  rw [slice, slice, List.drop_take, List.take_take, Nat.min_eq_left (by omega)]

theorem nameStop_take {chunkEnd : Nat} (inside : chunkEnd ≤ n) (pos nameLen : Nat) :
    nameStop (image.take n) chunkEnd pos nameLen = nameStop image chunkEnd pos nameLen := by
  induction pos, nameLen using nameStop.induct image chunkEnd with
  | case1 pos nameLen more ih =>
    have same : (image.take n).getD pos 0 = image.getD pos 0 := getD_take (by omega)
    rw [nameStop, same, if_pos more, ih]
    conv_rhs => rw [nameStop, if_pos more]
  | case2 pos nameLen done =>
    have stops : nameStop image chunkEnd pos nameLen = pos := by rw [nameStop, if_neg done]
    rw [nameStop, stops, if_neg]
    rintro ⟨before, nonzero, room⟩
    rw [getD_take (by omega)] at nonzero
    exact done ⟨before, nonzero, room⟩

/-- A block is decoded from the bytes of its chunk alone. -/
theorem cfsDecodeBlock_take {chunkEnd : Nat} (inside : chunkEnd ≤ n) (pos : Nat) :
    cfsDecodeBlock (image.take n) chunkEnd pos = cfsDecodeBlock image chunkEnd pos := by
  have after := nameStop_le image chunkEnd (pos + 1) 0
  simp only [cfsDecodeBlock, nameStop_take inside]
  by_cases ended : chunkEnd ≤ pos
  · rw [if_pos (.inl ended), if_pos (.inl ended)]
  have first : (image.take n).getD pos 0 = image.getD pos 0 := getD_take (by omega)
  rw [first]
  by_cases other : image.getD pos 0 ≠ 0x2a
  · rw [if_pos (.inr other), if_pos (.inr other)]
  rw [if_neg (not_or.mpr ⟨ended, other⟩), if_neg (not_or.mpr ⟨ended, other⟩)]
  by_cases past : chunkEnd ≤ nameStop image chunkEnd (pos + 1) 0
  · rw [if_pos (.inl past), if_pos (.inl past)]
  have nul : (image.take n).getD (nameStop image chunkEnd (pos + 1) 0) 0 =
      image.getD (nameStop image chunkEnd (pos + 1) 0) 0 := getD_take (by omega)
  rw [nul]
  by_cases long : image.getD (nameStop image chunkEnd (pos + 1) 0) 0 ≠ 0
  · rw [if_pos (.inr long), if_pos (.inr long)]
  rw [if_neg (not_or.mpr ⟨past, long⟩), if_neg (not_or.mpr ⟨past, long⟩)]
  generalize nameStop image chunkEnd (pos + 1) 0 = stop at *
  by_cases short : chunkEnd < stop + 1 + 17 + 2
  · rw [if_pos short, if_pos short]
  rw [if_neg short, if_neg short]
  have name : slice (image.take n) (pos + 1) (stop - (pos + 1)) =
      slice image (pos + 1) (stop - (pos + 1)) := slice_take (by omega)
  have header : slice (image.take n) (pos + 1) (stop + 1 + 17 - (pos + 1)) =
      slice image (pos + 1) (stop + 1 + 17 - (pos + 1)) := slice_take (by omega)
  have flags : (image.take n).getD (stop + 1 + 12) 0 = image.getD (stop + 1 + 12) 0 :=
    getD_take (by omega)
  rw [rd16_take (by omega), rd16_take (by omega), rd16_take (by omega), rd32_take (by omega),
    rd32_take (by omega), name, header, flags]
  by_cases empty : rd16 image (stop + 1 + 10) = 0
  · rw [if_pos empty, if_pos empty]
  rw [if_neg empty, if_neg empty]
  by_cases crossing : chunkEnd < stop + 1 + 17 + 2 + rd16 image (stop + 1 + 10) + 2
  · rw [if_pos crossing, if_pos crossing]
  · rw [rd16_take (by omega), slice_take (by omega)]

end Front

section Chunks

/-- The chunks from a position on fill the rest of the image; `last` is the end of the last data
chunk among them. -/
inductive Chunked (image : List UInt8) : Nat → Option Nat → Prop
  | done {pos} (past : image.length ≤ pos) : Chunked image pos none
  | chunk {pos last} (whole : pos + 6 + rd32 image (pos + 2) ≤ image.length)
      (rest : Chunked image (pos + 6 + rd32 image (pos + 2)) last) :
      Chunked image pos (last.or
        (if rd16 image pos = uefChunkData then some (pos + 6 + rd32 image (pos + 2)) else none))

variable {image : List UInt8} {pos n : Nat} {last : Option Nat}

theorem or_chosen {chosen : Prop} [Decidable chosen] (last effective : Option Nat) (next : Nat) :
    last.or (if chosen then some next else effective) =
      (last.or (if chosen then some next else none)).or effective := by
  rw [Option.or_assoc]
  split_ifs <;> rfl

theorem wicfsChunks_of_chunked (chunked : Chunked image pos last) (effective : Option Nat) :
    wicfsChunks image pos effective = some (last.or effective) := by
  induction chunked generalizing effective with
  | done past => rw [wicfsChunks, if_neg (by omega), Option.none_or]
  | @chunk pos last whole rest ih =>
    have room : ¬image.length - (pos + 6) < rd32 image (pos + 2) := by omega
    rw [wicfsChunks, if_pos (by omega), if_neg (by omega)]
    simp only [room, if_false, ih]
    exact congrArg some (or_chosen _ _ _)

theorem chunked_of_wicfsChunks {effective found : Option Nat}
    (walked : wicfsChunks image pos effective = some found) : ∃ last, Chunked image pos last := by
  fun_induction wicfsChunks image pos effective with
  | case1 => cases walked
  | case2 => cases walked
  | case3 pos effective more header chunkLength whole next ih =>
    obtain ⟨last, rest⟩ := ih walked
    exact ⟨_, .chunk (by omega) rest⟩
  | case4 pos effective done => exact ⟨none, .done (by omega)⟩

theorem Chunked.last_inside (chunked : Chunked image pos last) (chosen : last = some n) :
    pos < n ∧ n ≤ image.length := by
  induction chunked with
  | done past => cases chosen
  | @chunk pos last whole rest ih =>
    cases last with
    | some end_ =>
      rw [Option.some_or] at chosen
      have inside := ih chosen
      omega
    | none =>
      rw [Option.none_or] at chosen
      split_ifs at chosen
      cases chosen
      omega

/-- Cut behind the last data chunk, the chunks still fill the image and end in that chunk. -/
theorem Chunked.take (chunked : Chunked image pos last) (chosen : last = some n) :
    Chunked (image.take n) pos (some n) := by
  have inside := chunked.last_inside chosen
  have size : (image.take n).length = n := by
    rw [List.length_take]
    omega
  induction chunked with
  | done past => cases chosen
  | @chunk pos last whole rest ih =>
    cases last with
    | some end_ =>
      rw [Option.some_or] at chosen
      have further := rest.last_inside chosen
      have length : rd32 (image.take n) (pos + 2) = rd32 image (pos + 2) := rd32_take (by omega)
      have after := ih chosen further
      rw [← length] at after further
      have built := Chunked.chunk (by omega) after
      rwa [Option.some_or] at built
    | none =>
      rw [Option.none_or] at chosen
      split_ifs at chosen with tape
      cases chosen
      have length : rd32 (image.take (pos + 6 + rd32 image (pos + 2))) (pos + 2) =
          rd32 image (pos + 2) := rd32_take (by omega)
      have type : rd16 (image.take (pos + 6 + rd32 image (pos + 2))) pos = rd16 image pos :=
        rd16_take (by omega)
      have past : Chunked (image.take (pos + 6 + rd32 image (pos + 2)))
          (pos + 6 + rd32 (image.take (pos + 6 + rd32 image (pos + 2))) (pos + 2)) none :=
        .done (by omega)
      have built := Chunked.chunk (by omega) past
      rwa [Option.none_or, type, if_pos tape, length] at built

end Chunks

section Reports

/-- `last_0100_end` after the chunks of a report. -/
def last0100End (chunks : List ChunkRecord) : Option Nat :=
  chunks.foldl (fun last chunk =>
    if chunk.type = uefChunkData then some (chunk.offset + 6 + chunk.length) else last) none

/-- `legacy_trim_length`; the end of a chunk is never 0. -/
def legacyTrimLength (raw : List UInt8) (report : Report) : Nat :=
  (last0100End report.chunks).getD raw.length

variable {raw : List UInt8} {position : Nat} {report result : Report}

theorem last0100End_concat (chunks : List ChunkRecord) (chunk : ChunkRecord) :
    last0100End (chunks ++ [chunk]) =
      if chunk.type = uefChunkData then some (chunk.offset + 6 + chunk.length)
      else last0100End chunks := by
  rw [last0100End, List.foldl_append, List.foldl_cons, List.foldl_nil]
  rfl

/-- One more chunk of the report, before the rest of them. -/
theorem last0100End_chunk {last found : Option Nat} {chunks : List ChunkRecord}
    {chunk : ChunkRecord} (rest : found = last.or (last0100End (chunks ++ [chunk]))) :
    found = (last.or (if chunk.type = uefChunkData then some (chunk.offset + 6 + chunk.length)
      else none)).or (last0100End chunks) := by
  rw [rest, last0100End_concat]
  exact or_chosen _ _ _

theorem inspectChunks_chunked (accepted : inspectChunks raw position report = .ok result) :
    ∃ last, Chunked raw position last ∧
      last0100End result.chunks = last.or (last0100End report.chunks) := by
  fun_induction inspectChunks raw position report with
  | case1 => cases accepted
  | case2 => cases accepted
  | case3 => cases accepted
  | case4 position report more room type length whole chunk chunks data none ih =>
    obtain ⟨last, rest, found⟩ := ih accepted
    exact ⟨_, .chunk (by omega) rest, last0100End_chunk found⟩
  | case5 position report more room type length whole chunk chunks data block found ih =>
    obtain ⟨last, rest, found⟩ := ih accepted
    exact ⟨_, .chunk (by omega) rest, last0100End_chunk found⟩
  | case6 position report more room type length whole chunk chunks other ih =>
    obtain ⟨last, rest, found⟩ := ih accepted
    exact ⟨_, .chunk (by omega) rest, last0100End_chunk found⟩
  | case7 position report done =>
    cases accepted
    exact ⟨none, .done (by omega), rfl⟩

end Reports

section Walks

variable {σ : Type} {image : List UInt8} {visit : σ → CfsBlock → σ} {pos n : Nat}
  {last : Option Nat}

theorem walkBlocks_take {chunkEnd : Nat} (inside : chunkEnd ≤ n) (data bp : Nat) (s : σ)
    (issues : UInt32) :
    walkBlocks (image.take n) visit data chunkEnd bp s issues =
      walkBlocks image visit data chunkEnd bp s issues := by
  fun_induction walkBlocks image visit data chunkEnd bp s issues with
  | case1 bp s more stuck =>
    rw [walkBlocks_stuck more ((cfsDecodeBlock_take inside bp).trans stuck)]
  | case2 bp s more next block decoded ih =>
    rw [walkBlocks_step more ((cfsDecodeBlock_take inside bp).trans decoded), ih]
  | case3 bp s done => rw [walkBlocks, if_neg done]

/-- Without data chunks there is nothing to visit. -/
theorem walkChunks_quiet (chunked : Chunked image pos last) (quiet : last = none) (s : σ)
    (issues : UInt32) : walkChunks image visit pos s issues = (.ok, s, issues) := by
  induction chunked with
  | done past => rw [walkChunks, if_neg (by omega)]
  | @chunk pos last whole rest ih =>
    cases last with
    | some end_ => cases quiet
    | none =>
      rw [Option.none_or] at quiet
      split_ifs at quiet with tape
      have room : ¬(image.length < rd32 image (pos + 2) ∨
          image.length < pos + 6 + rd32 image (pos + 2)) := by omega
      rw [walkChunks, if_pos (by omega)]
      simp only [room, if_false, tape, ih]

/-- Up to the cut both walks take the same chunks, and behind it there is nothing to visit. -/
theorem walkChunks_take (chunked : Chunked image pos last) (chosen : last = some n) (s : σ)
    (issues : UInt32) :
    walkChunks (image.take n) visit pos s issues = walkChunks image visit pos s issues := by
  have inside := chunked.last_inside chosen
  have size : (image.take n).length = n := by
    rw [List.length_take]
    omega
  induction chunked generalizing s issues with
  | done past => cases chosen
  | @chunk pos last whole rest ih =>
    have cut : pos + 6 + rd32 image (pos + 2) ≤ n := by
      cases last with
      | some end_ =>
        rw [Option.some_or] at chosen
        have further := rest.last_inside chosen
        omega
      | none =>
        rw [Option.none_or] at chosen
        split_ifs at chosen
        cases chosen
        exact Nat.le_refl _
    have length : rd32 (image.take n) (pos + 2) = rd32 image (pos + 2) := rd32_take (by omega)
    have type : rd16 (image.take n) pos = rd16 image pos := rd16_take (by omega)
    have room : ¬(image.length < rd32 image (pos + 2) ∨
        image.length < pos + 6 + rd32 image (pos + 2)) := by omega
    have kept : ¬((image.take n).length < rd32 image (pos + 2) ∨
        (image.take n).length < pos + 6 + rd32 image (pos + 2)) := by omega
    have same : ∀ (s : σ) (issues : UInt32),
        walkChunks (image.take n) visit (pos + 6 + rd32 image (pos + 2)) s issues =
          walkChunks image visit (pos + 6 + rd32 image (pos + 2)) s issues := by
      intro s issues
      cases last with
      | some end_ =>
        rw [Option.some_or] at chosen
        exact ih chosen s issues (rest.last_inside chosen)
      | none =>
        rw [Option.none_or] at chosen
        split_ifs at chosen
        cases chosen
        rw [walkChunks_quiet rest rfl, walkChunks, if_neg (by omega)]
    rw [walkChunks, if_pos (by omega)]
    conv_rhs => rw [walkChunks, if_pos (by omega)]
    simp only [length, type, room, kept, if_false, walkBlocks_take cut, same]

end Walks

section Trimming

variable {image : List UInt8} {n : Nat} {last : Option Nat}

theorem isRawUef_iff : isRawUef image = true ↔ 10 ≤ image.length ∧ image.take 10 = uefMagic := by
  have magic : NetBackend.text ['U', 'E', 'F', ' ', 'F', 'i', 'l', 'e', '!'] ++ [0] = uefMagic := by
    decide
  rw [isRawUef, magic, Bool.and_eq_true, decide_eq_true_eq, beq_iff_eq]

theorem wicfsStreamLength_of_chunked (raw : isRawUef image = true) (long : 12 ≤ image.length)
    (chunked : Chunked image 12 last) : wicfsStreamLength image = last.getD image.length := by
  rw [wicfsStreamLength, raw, if_neg (by simpa using long), wicfsChunks_of_chunked chunked]
  cases last with
  | none => rfl
  | some n => rfl

/-- Nothing is cut off, or the cut ends the last data chunk of a whole list. -/
theorem wicfsStreamLength_cases (image : List UInt8) :
    wicfsStreamLength image = image.length ∨
      isRawUef image = true ∧ 12 ≤ image.length ∧
        Chunked image 12 (some (wicfsStreamLength image)) := by
  by_cases raw : isRawUef image = true
  · by_cases long : 12 ≤ image.length
    · cases walked : wicfsChunks image 12 none with
      | none =>
        rw [wicfsStreamLength, raw, if_neg (by simpa using long), walked]
        exact .inl rfl
      | some found =>
        obtain ⟨last, chunked⟩ := chunked_of_wicfsChunks walked
        rw [wicfsStreamLength_of_chunked raw long chunked]
        cases last with
        | none => exact .inl rfl
        | some n => exact .inr ⟨raw, long, chunked⟩
    · rw [wicfsStreamLength, if_pos (.inr (by omega))]
      exact .inl rfl
  · rw [wicfsStreamLength, if_pos (.inl (by simpa using raw))]
    exact .inl rfl

/-- The second byte of the first name of a disc catalogue is the NUL of the magic, so an image
that starts with it lists no files. -/
theorem dfsPlausible_files (raw : isRawUef image = true) (disc : dfsPlausible image = true) :
    (image.getD (dfsSector + 5) 0).toNat / 8 = 0 := by
  obtain ⟨long, magic⟩ := isRawUef_iff.mp raw
  have nul : image.getD 9 0 = 0 := by
    rw [← @getD_take image 10 9 (by omega), magic]
    rfl
  simp only [dfsPlausible, Bool.and_eq_true, List.all_eq_true, List.mem_range] at disc
  obtain ⟨-, -, names⟩ := disc
  by_contra positive
  have second := names 0 (by omega) 1 (by omega)
  rw [show 8 + 0 * 8 + 1 = 9 from rfl, nul] at second
  exact absurd second (by decide)

theorem mediaCatalogue_ssd_raw (raw : isRawUef image = true) (limit : Option Nat) :
    (mediaCatalogue image .ssd limit).2.entries = [] ∧
      (mediaCatalogue image .ssd limit).2.total = 0 ∧
      (mediaCatalogue image .ssd limit).2.issues = 0 := by
  simp only [mediaCatalogue, reduceCtorEq, if_false]
  split_ifs with empty
  · exact ⟨rfl, rfl, rfl⟩
  · rw [dfsCatalogue]
    cases disc : dfsPlausible image with
    | false => exact ⟨rfl, rfl, rfl⟩
    | true =>
      have files := dfsPlausible_files raw disc
      simp only [Bool.not_true, Bool.false_eq_true, if_false, files, List.range_zero, List.map_nil,
        List.take_nil]
      exact ⟨rfl, trivial, rfl⟩

theorem mediaExtract_ssd_raw (raw : isRawUef image = true) (index capacity : Nat) :
    (mediaExtract image .ssd index capacity).written = [] ∧
      (mediaExtract image .ssd index capacity).status ≠ .ok := by
  have entries := (mediaCatalogue_ssd_raw raw (some mediaMaxEntries)).1
  simp only [mediaExtract, reduceCtorEq, if_false]
  by_cases failed : (mediaCatalogue image .ssd (some mediaMaxEntries)).1 = .ok
  · simp [failed, entries]
  · simp [failed]

/-- Every walk of the cut image is the walk of the whole one. -/
theorem uefWalk_take {σ : Type} {visit : σ → CfsBlock → σ} (chunked : Chunked image 12 (some n))
    (s : σ) : uefWalk (image.take n) visit s = uefWalk image visit s := by
  have inside := chunked.last_inside rfl
  have size : (image.take n).length = n := by
    rw [List.length_take]
    omega
  have magic : (image.take n).take 10 = image.take 10 := by
    rw [List.take_take, Nat.min_eq_left (by omega)]
  have long : ¬image.length < uefHeaderLen := by
    have header : uefHeaderLen = 12 := rfl
    omega
  have kept : ¬(image.take n).length < uefHeaderLen := by
    have header : uefHeaderLen = 12 := rfl
    omega
  rw [uefWalk, uefWalk, magic]
  simp only [long, kept, false_or]
  split_ifs
  · rfl
  · exact walkChunks_take chunked rfl s 0

/-- The data of every visited block lies before the cut. -/
theorem uefCopyBlock_take (chunked : Chunked image 12 (some n)) (copy : UefCopy) :
    (visited (image.take n)).foldl (uefCopyBlock (image.take n)) copy =
      (visited (image.take n)).foldl (uefCopyBlock image) copy := by
  have inside := chunked.last_inside rfl
  refine List.foldl_ext _ _ copy fun c block member => ?_
  have bound := (visited_inside (image.take n)).2 block member
  have data : slice (image.take n) block.dataOffset block.dataLength =
      slice image block.dataOffset block.dataLength := by
    refine slice_take ?_
    rw [List.length_take] at bound
    omega
  simp only [uefCopyBlock, data]

theorem mediaIdentify_raw (raw : isRawUef image = true) (long : 12 ≤ image.length) :
    mediaIdentify image = .uef := by
  rw [mediaIdentify, if_pos ⟨long, (isRawUef_iff.mp raw).2⟩]

theorem isRawUef_take (raw : isRawUef image = true) (long : 10 ≤ n) :
    isRawUef (image.take n) = true := by
  obtain ⟨size, magic⟩ := isRawUef_iff.mp raw
  refine isRawUef_iff.mpr ⟨?_, ?_⟩
  · rw [List.length_take]
    omega
  · rw [List.take_take, Nat.min_eq_left long, magic]

/-- What the cut keeps of an image: `n` is the length of what is left. -/
structure Trims (image : List UInt8) (n : Nat) : Prop where
  bounded : n ≤ image.length
  legacy : ∀ report, inspectUef image = .ok report → n = legacyTrimLength image report
  untouched : isRawUef image = false ∨ ¬(∃ last, Chunked image 12 last) → n = image.length
  again : wicfsStreamLength (image.take n) = n
  tape : ∀ kind entries, kind ≠ .ssd →
    mediaCatalogue (image.take n) kind entries = mediaCatalogue image kind entries
  extract : ∀ kind index capacity, kind ≠ .ssd →
    mediaExtract (image.take n) kind index capacity = mediaExtract image kind index capacity
  listed : ∀ kind entries,
    (mediaCatalogue (image.take n) kind entries).2.entries =
        (mediaCatalogue image kind entries).2.entries ∧
      (mediaCatalogue (image.take n) kind entries).2.total =
        (mediaCatalogue image kind entries).2.total
  extracted : ∀ kind index capacity,
    (mediaExtract (image.take n) kind index capacity).written =
        (mediaExtract image kind index capacity).written ∧
      (mediaExtract (image.take n) kind index capacity).outLength =
        (mediaExtract image kind index capacity).outLength

theorem wicfsStreamLength_legacy {report : Report} (accepted : inspectUef image = .ok report) :
    wicfsStreamLength image = legacyTrimLength image report := by
  rw [inspectUef] at accepted
  split_ifs at accepted with other short
  have long : 12 ≤ image.length := Nat.le_of_not_lt short
  obtain ⟨last, chunked, found⟩ := inspectChunks_chunked accepted
  have raw : isRawUef image = true := isRawUef_iff.mpr ⟨by omega, not_not.mp other⟩
  rw [wicfsStreamLength_of_chunked raw long chunked, legacyTrimLength, found]
  cases last <;> rfl

theorem wicfsStreamLength_untouched
    (broken : isRawUef image = false ∨ ¬(∃ last, Chunked image 12 last)) :
    wicfsStreamLength image = image.length := by
  rcases wicfsStreamLength_cases image with whole | ⟨raw, -, chunked⟩
  · exact whole
  · rcases broken with other | list
    · rw [other] at raw
      cases raw
    · exact absurd ⟨_, chunked⟩ list

section Cut

variable {kind : MediaKind} (raw : isRawUef image = true) (long : 12 ≤ image.length)
  (chunked : Chunked image 12 (some n))

include chunked in
theorem identified_take : 12 ≤ (image.take n).length := by
  have inside := chunked.last_inside rfl
  rw [List.length_take]
  omega

include raw long chunked

/-- Both images are tapes, unless a disc is asked for. -/
theorem kind_take (tape : kind ≠ .ssd) :
    (if kind = .unknown then mediaIdentify image else kind) = .uef ∧
      (if kind = .unknown then mediaIdentify (image.take n) else kind) = .uef := by
  have inside := chunked.last_inside rfl
  have kept : isRawUef (image.take n) = true := isRawUef_take raw (by omega)
  rw [mediaIdentify_raw raw long, mediaIdentify_raw kept (identified_take chunked)]
  cases kind with
  | unknown => exact ⟨rfl, rfl⟩
  | uef => exact ⟨rfl, rfl⟩
  | ssd => exact absurd rfl tape

theorem mediaCatalogue_take (tape : kind ≠ .ssd) (entries : Option Nat) :
    mediaCatalogue (image.take n) kind entries = mediaCatalogue image kind entries := by
  obtain ⟨own, cut⟩ := kind_take raw long chunked tape
  simp only [mediaCatalogue, own, cut, uefWalk_take chunked]

theorem mediaExtract_take (tape : kind ≠ .ssd) (index capacity : Nat) :
    mediaExtract (image.take n) kind index capacity = mediaExtract image kind index capacity := by
  obtain ⟨own, cut⟩ := kind_take raw long chunked tape
  have listing : uefListing (image.take n) = uefListing image := uefWalk_take chunked _
  have copied : ∀ copy, uefWalk (image.take n) (uefCopyBlock (image.take n)) copy =
      uefWalk image (uefCopyBlock image) copy := by
    intro copy
    rw [uefWalk_eq, uefWalk_eq, uefCopyBlock_take chunked, visited, listing]
    rfl
  simp only [mediaExtract, own, cut, copied]

theorem listed_take (kind : MediaKind) (entries : Option Nat) :
    (mediaCatalogue (image.take n) kind entries).2.entries =
        (mediaCatalogue image kind entries).2.entries ∧
      (mediaCatalogue (image.take n) kind entries).2.total =
        (mediaCatalogue image kind entries).2.total := by
  have inside := chunked.last_inside rfl
  by_cases disc : kind = .ssd
  · obtain ⟨unlisted, zero, -⟩ := mediaCatalogue_ssd_raw raw entries
    obtain ⟨unlisted', zero', -⟩ :=
      mediaCatalogue_ssd_raw (@isRawUef_take image n raw (by omega)) entries
    rw [disc, unlisted, unlisted', zero, zero']
    exact ⟨rfl, rfl⟩
  · rw [mediaCatalogue_take raw long chunked disc]
    exact ⟨rfl, rfl⟩

theorem extracted_take (kind : MediaKind) (index capacity : Nat) :
    (mediaExtract (image.take n) kind index capacity).written =
        (mediaExtract image kind index capacity).written ∧
      (mediaExtract (image.take n) kind index capacity).outLength =
        (mediaExtract image kind index capacity).outLength := by
  have inside := chunked.last_inside rfl
  by_cases disc : kind = .ssd
  · obtain ⟨refused, failed⟩ := mediaExtract_ssd_raw raw index capacity
    obtain ⟨refused', failed'⟩ :=
      mediaExtract_ssd_raw (@isRawUef_take image n raw (by omega)) index capacity
    rw [disc, refused, refused', Extraction.outLength, Extraction.outLength, if_neg failed,
      if_neg failed']
    exact ⟨rfl, rfl⟩
  · rw [mediaExtract_take raw long chunked disc]
    exact ⟨rfl, rfl⟩

end Cut

/-- Trimming loses no data. -/
theorem wicfsStreamLength_trims (image : List UInt8) : Trims image (wicfsStreamLength image) := by
  have legacy : ∀ report, inspectUef image = .ok report →
      wicfsStreamLength image = legacyTrimLength image report := fun _ => wicfsStreamLength_legacy
  have untouched := @wicfsStreamLength_untouched image
  rcases wicfsStreamLength_cases image with whole | ⟨raw, long, chunked⟩
  · have same : image.take (wicfsStreamLength image) = image := by rw [whole, List.take_length]
    exact ⟨whole.le, legacy, untouched, by rw [same], by simp [same], by simp [same],
      by simp [same], by simp [same]⟩
  generalize wicfsStreamLength image = n at *
  have inside := chunked.last_inside rfl
  have kept : isRawUef (image.take n) = true := isRawUef_take raw (by omega)
  exact {
    bounded := inside.2
    legacy
    untouched
    again := wicfsStreamLength_of_chunked kept (identified_take chunked) (chunked.take rfl)
    tape := fun _ entries tape => mediaCatalogue_take raw long chunked tape entries
    extract := fun _ index capacity tape => mediaExtract_take raw long chunked tape index capacity
    listed := listed_take raw long chunked
    extracted := extracted_take raw long chunked }

end Trimming

end Pi1MHz.MediaCatalogue
