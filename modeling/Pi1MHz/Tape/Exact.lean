import Mathlib.Data.List.Nodup
import Pi1MHz.Foundation.Frames
import Pi1MHz.Tape.Blocks
import Pi1MHz.Tape.Tokens

/-! The repair changes exactly what it must: the digits of the tokens in the payloads that it
reaches, and the CRCs of those payloads. -/
namespace Pi1MHz.UefRepair

/-- The bytes of a payload that begins at `at` in the data. -/
def payloadBytes (data : List UInt8) (place size : Nat) : List UInt8 := (data.drop place).take size

/-- A token, by the place of its first byte, in one of the payloads. -/
def TokenIn (data : List UInt8) (payload : Nat → Nat → Prop) (q : Nat) : Prop :=
  ∃ place size i, payload place size ∧ Token (payloadBytes data place size) i ∧ q = place + i

/-- A payload with a token. -/
def Rewritten (data : List UInt8) (payload : Nat → Nat → Prop) (place size : Nat) : Prop :=
  payload place size ∧ ∃ i, Token (payloadBytes data place size) i

/-- `out` is `data` with the tokens of the payloads redirected, `count` of them, and the CRC after
every payload that had one stored anew, high byte first. -/
structure Repaired (data : List UInt8) (payload : Nat → Nat → Prop) (out : List UInt8)
    (count : Nat) : Prop where
  inside : ∀ place size, payload place size → place + size + 2 ≤ data.length
  length : out.length = data.length
  digits : ∀ q, TokenIn data payload q → out[q + 2]? = some (char '9') ∧
    out[q + 3]? = some (char '0') ∧ out[q + 4]? = some (redirected data[q + 4]?)
  crc : ∀ place size, Rewritten data payload place size →
    payloadBytes out (place + size) 2 = storedCrc (payloadBytes out place size)
  others : ∀ j, (∀ q, TokenIn data payload q → j < q + 2 ∨ q + 4 < j) →
    (∀ place size, Rewritten data payload place size → j < place + size ∨ place + size + 2 ≤ j) →
    out[j]? = data[j]?
  clean : ∀ q, ¬TokenIn out payload q
  counted : ∃ places : List Nat, places.Nodup ∧ (∀ q, q ∈ places ↔ TokenIn data payload q) ∧
    places.length = count

section Parts
variable {front back frontOut backOut : List UInt8} {first second : Nat → Nat → Prop}
  {place size : Nat}

theorem payloadBytes_left (back : List UInt8) (inside : place + size ≤ front.length) :
    payloadBytes (front ++ back) place size = payloadBytes front place size := by
  rw [payloadBytes, payloadBytes, List.drop_append_of_le_length (by omega),
    List.take_append_of_le_length (by rw [List.length_drop]; omega)]

theorem payloadBytes_right (front : List UInt8) :
    payloadBytes (front ++ back) (front.length + place) size = payloadBytes back place size := by
  rw [payloadBytes, payloadBytes, List.drop_append, List.drop_of_length_le (by omega),
    List.nil_append, Nat.add_sub_cancel_left]

/-- The payloads of two parts together. -/
def both (shift : Nat) (first second : Nat → Nat → Prop) (place size : Nat) : Prop :=
  first place size ∨ ∃ j, place = shift + j ∧ second j size

theorem tokenIn_both (inside : ∀ place size, first place size → place + size + 2 ≤ front.length)
    (q : Nat) : TokenIn (front ++ back) (both front.length first second) q ↔
      TokenIn front first q ∨ ∃ j, q = front.length + j ∧ TokenIn back second j := by
  constructor
  · rintro ⟨place, size, i, here | ⟨j, rfl, here⟩, token, rfl⟩
    · have within := inside place size here
      rw [payloadBytes_left _ (by omega)] at token
      exact .inl ⟨place, size, i, here, token, rfl⟩
    · rw [payloadBytes_right] at token
      exact .inr ⟨j + i, by omega, j, size, i, here, token, rfl⟩
  · rintro (⟨place, size, i, here, token, rfl⟩ | ⟨_, rfl, place, size, i, here, token, rfl⟩)
    · have within := inside place size here
      rw [← payloadBytes_left back (by omega)] at token
      exact ⟨place, size, i, .inl here, token, rfl⟩
    · rw [← payloadBytes_right front] at token
      exact ⟨_, size, i, .inr ⟨place, rfl, here⟩, token, by omega⟩

theorem rewritten_both (inside : ∀ place size, first place size → place + size + 2 ≤ front.length) :
    Rewritten (front ++ back) (both front.length first second) place size ↔
      Rewritten front first place size ∨
        ∃ j, place = front.length + j ∧ Rewritten back second j size := by
  constructor
  · rintro ⟨here | ⟨j, rfl, here⟩, i, token⟩
    · have within := inside place size here
      rw [payloadBytes_left _ (by omega)] at token
      exact .inl ⟨here, i, token⟩
    · rw [payloadBytes_right] at token
      exact .inr ⟨j, rfl, here, i, token⟩
  · rintro (⟨here, i, token⟩ | ⟨j, rfl, here, i, token⟩)
    · have within := inside place size here
      rw [← payloadBytes_left back (by omega)] at token
      exact ⟨.inl here, i, token⟩
    · rw [← payloadBytes_right front] at token
      exact ⟨.inr ⟨j, rfl, here⟩, i, token⟩

theorem payloadBytes_length (inside : place + size ≤ front.length) :
    (payloadBytes front place size).length = size := by
  rw [payloadBytes, List.length_take, List.length_drop]
  omega

theorem TokenIn.bound {payload : Nat → Nat → Prop} {q : Nat}
    (inside : ∀ place size, payload place size → place + size + 2 ≤ front.length)
    (token : TokenIn front payload q) : q + 5 ≤ front.length := by
  obtain ⟨place, size, i, here, token, rfl⟩ := token
  have within := inside place size here
  have bound := token.bound
  rw [payloadBytes_length (by omega)] at bound
  omega

theorem getElem?_append_add (front back : List UInt8) (k : Nat) :
    (front ++ back)[front.length + k]? = back[k]? := by
  rw [List.getElem?_append_right (Nat.le_add_right _ _), Nat.add_sub_cancel_left]

/-- The tokens of two parts are counted apart: those behind stand further on. -/
theorem counted_append {m n : Nat}
    (inside : ∀ place size, first place size → place + size + 2 ≤ front.length)
    (left : ∃ places : List Nat, places.Nodup ∧ (∀ q, q ∈ places ↔ TokenIn front first q) ∧
      places.length = m)
    (right : ∃ places : List Nat, places.Nodup ∧ (∀ q, q ∈ places ↔ TokenIn back second q) ∧
      places.length = n) :
    ∃ places : List Nat, places.Nodup ∧
      (∀ q, q ∈ places ↔ TokenIn (front ++ back) (both front.length first second) q) ∧
      places.length = m + n := by
  obtain ⟨firsts, distinct, members, length⟩ := left
  obtain ⟨seconds, others, rest, more⟩ := right
  refine ⟨firsts ++ seconds.map (front.length + ·), ?_, ?_, ?_⟩
  · rw [List.nodup_append]
    refine ⟨distinct, others.map fun a b same => Nat.add_left_cancel same, ?_⟩
    intro a here b there
    have bound := ((members a).mp here).bound inside
    obtain ⟨j, _, rfl⟩ := List.mem_map.mp there
    omega
  · intro q
    rw [List.mem_append, members, List.mem_map, tokenIn_both inside]
    refine or_congr_right ?_
    constructor
    · rintro ⟨j, there, rfl⟩
      exact ⟨j, rfl, (rest j).mp there⟩
    · rintro ⟨j, rfl, there⟩
      exact ⟨j, (rest j).mpr there, rfl⟩
  · rw [List.length_append, List.length_map, length, more]

/-- A byte that no token and no CRC of the whole covers is not covered in its own part. -/
theorem others_append {m n : Nat} (left : Repaired front first frontOut m)
    (right : Repaired back second backOut n) (i : Nat)
    (digits : ∀ q, TokenIn (front ++ back) (both front.length first second) q → i < q + 2 ∨ q + 4 < i)
    (crcs : ∀ place size, Rewritten (front ++ back) (both front.length first second) place size →
      i < place + size ∨ place + size + 2 ≤ i) :
    (frontOut ++ backOut)[i]? = (front ++ back)[i]? := by
  rcases Nat.lt_or_ge i front.length with early | late
  · rw [List.getElem?_append_left early, List.getElem?_append_left (by rwa [left.length])]
    apply left.others
    · exact fun q token => digits q ((tokenIn_both left.inside q).mpr (.inl token))
    · exact fun place size marked => crcs place size ((rewritten_both left.inside).mpr (.inl marked))
  · obtain ⟨j, rfl⟩ := Nat.exists_eq_add_of_le late
    rw [getElem?_append_add, ← left.length, getElem?_append_add]
    apply right.others
    · intro q token
      have place := digits _ ((tokenIn_both left.inside _).mpr (.inr ⟨q, rfl, token⟩))
      omega
    · intro place size marked
      have where_ := crcs _ size ((rewritten_both left.inside).mpr (.inr ⟨place, rfl, marked⟩))
      omega

/-- Two parts repaired are the whole repaired. -/
theorem Repaired.append {m n : Nat} (left : Repaired front first frontOut m)
    (right : Repaired back second backOut n) :
    Repaired (front ++ back) (both front.length first second) (frontOut ++ backOut) (m + n) := by
  have tokens : ∀ q, TokenIn (front ++ back) (both front.length first second) q ↔ _ :=
    tokenIn_both left.inside
  have rewritten : ∀ place size,
      Rewritten (front ++ back) (both front.length first second) place size ↔ _ :=
    fun _ _ => rewritten_both left.inside
  constructor
  · rintro place size (here | ⟨j, rfl, here⟩)
    · have within := left.inside place size here
      rw [List.length_append]
      omega
    · have within := right.inside j size here
      rw [List.length_append]
      omega
  · rw [List.length_append, List.length_append, left.length, right.length]
  · intro q token
    rcases (tokens q).mp token with here | ⟨j, rfl, here⟩
    · have bound := here.bound left.inside
      have length := left.length
      rw [List.getElem?_append_left (by omega), List.getElem?_append_left (by omega),
        List.getElem?_append_left (by omega), List.getElem?_append_left (by omega)]
      exact left.digits q here
    · have after : ∀ k, (frontOut ++ backOut)[front.length + k]? = backOut[k]? := by
        intro k
        rw [← left.length, getElem?_append_add]
      simp only [Nat.add_assoc, getElem?_append_add, after]
      exact right.digits j here
  · intro place size marked
    rcases (rewritten place size).mp marked with here | ⟨j, rfl, here⟩
    · have within := left.inside place size here.1
      have length := left.length
      rw [payloadBytes_left _ (by omega), payloadBytes_left _ (by omega)]
      exact left.crc place size here
    · rw [← left.length, Nat.add_assoc, payloadBytes_right, payloadBytes_right]
      exact right.crc j size here
  · exact others_append left right
  · intro q token
    have inside : ∀ place size, first place size → place + size + 2 ≤ frontOut.length := by
      rw [left.length]
      exact left.inside
    rw [← left.length] at token
    rcases (tokenIn_both inside q).mp token with here | ⟨j, rfl, here⟩
    · exact left.clean q here
    · exact right.clean j here
  · exact counted_append left.inside left.counted right.counted

end Parts

section Chunks
variable {chunk : List UInt8} {place size : Nat}

/-- Bytes whose payloads have no token are left as they are. -/
theorem repaired_untouched {data : List UInt8} {payload : Nat → Nat → Prop}
    (inside : ∀ place size, payload place size → place + size + 2 ≤ data.length)
    (nothing : ∀ q, ¬TokenIn data payload q) : Repaired data payload data 0 where
  inside := inside
  length := rfl
  digits q token := absurd token (nothing q)
  crc place size marked := by
    obtain ⟨here, i, token⟩ := marked
    exact absurd ⟨place, size, i, here, token, rfl⟩ (nothing (place + i))
  others _ _ _ := rfl
  clean := nothing
  counted := ⟨[], List.nodup_nil, fun q => iff_of_false List.not_mem_nil (nothing q), rfl⟩

theorem repaired_none (data : List UInt8) : Repaired data (fun _ _ => False) data 0 :=
  repaired_untouched (fun _ _ here => here.elim) fun _ token => token.elim fun _ found =>
    found.elim fun _ more => more.elim fun _ all => all.1

theorem Repaired.congr {data out : List UInt8} {payload wanted : Nat → Nat → Prop} {count : Nat}
    (done : Repaired data payload out count)
    (same : ∀ place size, payload place size ↔ wanted place size) :
    Repaired data wanted out count := by
  have equal : payload = wanted := funext fun place => funext fun size => propext (same place size)
  exact equal ▸ done

/-- The only payload there is. -/
def only (place size a n : Nat) : Prop := a = place ∧ n = size

theorem payloadBytes_front (data crc : List UInt8) : payloadBytes (data ++ crc) 0 data.length = data := by
  simp [payloadBytes]

/-- The tokens of the payload at the front are those of its bytes. -/
theorem tokenIn_only (data crc : List UInt8) (q : Nat) :
    TokenIn (data ++ crc) (only 0 data.length) q ↔ Token data q := by
  constructor
  · rintro ⟨_, _, i, ⟨rfl, rfl⟩, token, rfl⟩
    rw [payloadBytes_front] at token
    rwa [Nat.zero_add]
  · intro token
    rw [← payloadBytes_front data crc] at token
    exact ⟨0, data.length, q, ⟨rfl, rfl⟩, token, (Nat.zero_add q).symm⟩

/-- A payload that had a token, and its new CRC. -/
theorem repaired_redirected {data crc out : List UInt8} {hits : Nat} (two : crc.length = 2)
    (done : Redirected (fun _ => True) data out hits) (any : ∃ i, Token data i) :
    Repaired (data ++ crc) (only 0 data.length) (out ++ storedCrc out) hits := by
  have tokens := tokenIn_only data crc
  have same : out.length = data.length := done.length
  have stored : payloadBytes (out ++ storedCrc out) 0 data.length = out := by
    rw [← same, payloadBytes_front]
  obtain ⟨places, nodup, members, length⟩ := done.counted
  constructor
  · rintro _ _ ⟨rfl, rfl⟩
    rw [List.length_append, two]
    omega
  · rw [List.length_append, List.length_append, same, two]
    rfl
  · intro q token
    have here := (tokens q).mp token
    have bound := here.bound
    rw [List.getElem?_append_left (by omega), List.getElem?_append_left (by omega),
      List.getElem?_append_left (by omega), List.getElem?_append_left (by omega)]
    exact done.digits q here trivial
  · rintro _ _ ⟨⟨rfl, rfl⟩, _⟩
    rw [stored, Nat.zero_add, payloadBytes, ← same, List.drop_left]
    rfl
  · intro j digits crcs
    have marked : Rewritten (data ++ crc) (only 0 data.length) 0 data.length := by
      rw [Rewritten, payloadBytes_front]
      exact ⟨⟨rfl, rfl⟩, any⟩
    have place := crcs 0 data.length marked
    rcases Nat.lt_or_ge j data.length with early | late
    · rw [List.getElem?_append_left early, List.getElem?_append_left (by omega)]
      exact done.others j fun i token _ => digits i ((tokens i).mpr token)
    · rw [List.getElem?_eq_none, List.getElem?_eq_none]
      · rw [List.length_append, two]
        omega
      · rw [List.length_append, same]
        show data.length + 2 ≤ j
        omega
  · rintro q ⟨_, _, i, ⟨rfl, rfl⟩, token, rfl⟩
    rw [stored] at token
    exact ((done.tokens i).mp token).2 trivial
  · refine ⟨places, nodup, fun q => ?_, length⟩
    rw [members, tokens, and_true]

/-- A payload and its CRC. -/
theorem repaired_payload (data : List UInt8) {crc : List UInt8} (two : crc.length = 2) :
    Repaired (data ++ crc) (only 0 data.length)
      (if (repairBlockPayload data).2 ≠ 0 then
        (repairBlockPayload data).1 ++ storedCrc (repairBlockPayload data).1 else data ++ crc)
      (repairBlockPayload data).2 := by
  have done := repairBlockPayload_redirects data
  generalize repairBlockPayload data = repaired at *
  obtain ⟨out, hits⟩ := repaired
  obtain ⟨places, nodup, members, length⟩ := done.counted
  by_cases nothing : hits = 0
  · subst nothing
    have empty : places = [] := List.length_eq_zero_iff.mp length
    refine repaired_untouched ?_ fun q token => ?_
    · rintro _ _ ⟨rfl, rfl⟩
      rw [List.length_append, two]
      omega
    · have member := (members q).mpr ⟨(tokenIn_only data crc q).mp token, trivial⟩
      rw [empty] at member
      exact List.not_mem_nil member
  · have any : ∃ i, Token data i := by
      have filled : 0 < places.length := Nat.lt_of_lt_of_eq (Nat.pos_of_ne_zero nothing) length.symm
      obtain ⟨i, member⟩ := List.exists_mem_of_length_pos filled
      exact ⟨i, ((members i).mp member).1⟩
    simp only [ne_eq, nothing, not_false_eq_true, if_true]
    exact repaired_redirected two done any

/-- One payload among bytes that stay. -/
theorem repaired_rewriteAt {block : List UInt8} (inside : place + size + 2 ≤ block.length) :
    Repaired block (only place size) (rewriteAt block place size).1
      (rewriteAt block place size).2 := by
  let data := (block.drop place).take size
  let crc := (block.drop (place + size)).take 2
  let front := block.take place
  let back := block.drop (place + size + 2)
  have lengths : front.length = place ∧ data.length = size ∧ crc.length = 2 := by
    simp only [front, data, crc, List.length_take, List.length_drop]
    omega
  have parts : front ++ (data ++ crc ++ back) = block := by
    have tail : crc ++ back = block.drop (place + size) := by
      rw [← List.take_append_drop 2 (block.drop (place + size)), List.drop_drop]
    have more : data ++ block.drop (place + size) = block.drop place := by
      rw [← List.take_append_drop size (block.drop place), List.drop_drop]
    rw [List.append_assoc, tail, more, List.take_append_drop]
  have pieces := (repaired_none front).append
    ((repaired_payload data lengths.2.2).append (repaired_none back))
  have result : rewriteAt block place size =
      (front ++ ((if (repairBlockPayload data).2 ≠ 0 then
        (repairBlockPayload data).1 ++ storedCrc (repairBlockPayload data).1 else data ++ crc) ++
          back), 0 + ((repairBlockPayload data).2 + 0)) := by
    simp only [rewriteAt]
    split
    next => simp [front, back, data]
    next none =>
      have zero : (repairBlockPayload data).2 = 0 := not_not.mp none
      rw [zero, parts]
  rw [parts] at pieces
  rw [result]
  refine pieces.congr fun a n => ?_
  simp only [both, only, false_or, or_false, lengths.1, lengths.2.1, and_false, exists_false]
  constructor
  · rintro ⟨_, rfl, rfl, rfl⟩
    exact ⟨rfl, rfl⟩
  · rintro ⟨rfl, rfl⟩
    exact ⟨0, rfl, rfl, rfl⟩

/-- The payload of a `&0100` chunk that the repair scans, counted from the chunk's start. -/
def ChunkPayload (chunk : List UInt8) (place size : Nat) : Prop :=
  rd16 chunk 0 = 0x0100 ∧ ∃ name ≤ repairNameLimit,
    CassetteBlock (chunk.drop 6) name size ∧ place = 6 + (name + 21)

theorem ChunkPayload.unique {a n : Nat} (here : ChunkPayload chunk place size)
    (there : ChunkPayload chunk a n) : place = a ∧ size = n := by
  obtain ⟨_, name, _, block, rfl⟩ := here
  obtain ⟨_, other, _, same, rfl⟩ := there
  obtain ⟨rfl, rfl⟩ := block.unique same
  exact ⟨rfl, rfl⟩

theorem ChunkPayload.inside (here : ChunkPayload chunk place size) :
    place + size + 2 ≤ chunk.length := by
  obtain ⟨_, name, _, block, rfl⟩ := here
  have complete := block.complete
  rw [List.length_drop] at complete
  omega

theorem repairChunk_repairs (chunk : List UInt8) :
    Repaired chunk (ChunkPayload chunk) (repairChunk chunk).1 (repairChunk chunk).2 := by
  have untouched (nothing : ∀ place size, ¬ChunkPayload chunk place size) :
      Repaired chunk (ChunkPayload chunk) chunk 0 := by
    refine repaired_untouched (fun place size here => here.inside) ?_
    rintro q ⟨place, size, _, here, _⟩
    exact nothing place size here
  simp only [repairChunk]
  split
  next block =>
    obtain ⟨type, long, star⟩ := block
    rw [List.length_drop] at long
    cases scanned : scannedBlock (chunk.drop 6) with
    | none =>
      rw [repairBlock_passed scanned, List.take_append_drop]
      apply untouched
      rintro place size ⟨_, name, short, complete, _⟩
      have found := (scannedBlock_iff star).mpr ⟨name, short, complete, rfl⟩
      rw [scanned] at found
      cases found
    | some pair =>
      obtain ⟨dataAt, n⟩ := pair
      obtain ⟨name, short, complete, rfl⟩ := (scannedBlock_iff star).mp scanned
      have whole := complete.complete
      rw [repairBlock_scanned scanned]
      have middle : Repaired (chunk.drop 6) (only (name + 21) n) _ _ := repaired_rewriteAt (by omega)
      have pieces := (repaired_none (chunk.take 6)).append middle
      rw [List.take_append_drop, Nat.zero_add] at pieces
      refine pieces.congr fun a m => ?_
      have six : (chunk.take 6).length = 6 := by
        rw [List.length_take]
        omega
      simp only [both, only, false_or, six]
      constructor
      · rintro ⟨_, rfl, rfl, rfl⟩
        exact ⟨type, name, short, complete, rfl⟩
      · rintro ⟨_, other, _, again, rfl⟩
        obtain ⟨rfl, rfl⟩ := complete.unique again
        exact ⟨_, rfl, rfl, rfl⟩
  next other =>
    apply untouched
    rintro place size ⟨type, name, short, complete, _⟩
    have whole := complete.complete
    exact other ⟨type, by omega, complete.star⟩

/-- The bytes in front of the payload stay. -/
theorem repairChunk_front (here : ChunkPayload chunk place size) {j : Nat} (early : j < place) :
    (repairChunk chunk).1[j]? = chunk[j]? := by
  apply (repairChunk_repairs chunk).others
  · rintro q ⟨a, n, i, there, _, rfl⟩
    obtain ⟨rfl, rfl⟩ := here.unique there
    omega
  · rintro a n ⟨there, _⟩
    obtain ⟨rfl, rfl⟩ := here.unique there
    omega

/-- A chunk without a payload to scan stays. -/
theorem repairChunk_without (nothing : ∀ place size, ¬ChunkPayload chunk place size) :
    repaired chunk = chunk := by
  apply List.ext_getElem?
  intro j
  apply (repairChunk_repairs chunk).others
  · rintro q ⟨a, n, _, there, _⟩
    exact absurd there (nothing a n)
  · rintro a n ⟨there, _⟩
    exact absurd there (nothing a n)

theorem rd16_congr {data other : List UInt8} {i : Nat} (first : other[i]? = data[i]?)
    (second : other[i + 1]? = data[i + 1]?) : rd16 other i = rd16 data i := by
  simp only [rd16, List.getD_eq_getElem?_getD, first, second]

/-- A block is one by the bytes in front of its data. -/
theorem CassetteBlock.transfer {block other : List UInt8} {name size : Nat}
    (here : CassetteBlock block name size) (length : other.length = block.length)
    (same : ∀ j < name + 21, other[j]? = block[j]?) : CassetteBlock other name size := by
  have byte : ∀ j < name + 21, other.getD j 0 = block.getD j 0 := by
    intro j early
    rw [List.getD_eq_getElem?_getD, List.getD_eq_getElem?_getD, same j early]
  constructor
  · rw [byte 0 (by omega)]
    exact here.star
  · intro i early
    rw [byte _ (by omega)]
    exact here.letters i early
  · rw [byte _ (by omega)]
    exact here.nul
  · rw [rd16_congr (same _ (by omega)) (same _ (by omega))]
    exact here.length
  · exact here.data
  · rw [length]
    exact here.complete

theorem ChunkPayload.repaired (here : ChunkPayload chunk place size) :
    ChunkPayload (repaired chunk) place size := by
  have front := fun j => repairChunk_front here (j := j)
  obtain ⟨type, name, short, block, rfl⟩ := here
  refine ⟨?_, name, short, block.transfer ?_ ?_, rfl⟩
  · rw [← type]
    exact rd16_congr (front 0 (by omega)) (front 1 (by omega))
  · rw [List.length_drop, List.length_drop, UefRepair.repaired, repairChunk_length]
  · intro j early
    rw [List.getElem?_drop, List.getElem?_drop]
    exact front (6 + j) (by omega)

/-- The repair does not change which payload a chunk has. -/
theorem chunkPayload_repaired :
    ChunkPayload (repaired chunk) place size ↔ ChunkPayload chunk place size := by
  constructor
  · intro after
    by_cases before : ∃ a n, ChunkPayload chunk a n
    · obtain ⟨a, n, there⟩ := before
      obtain ⟨rfl, rfl⟩ := after.unique there.repaired
      exact there
    · rw [repairChunk_without fun a n there => before ⟨a, n, there⟩] at after
      exact after
  · exact ChunkPayload.repaired

/-- The repair keeps what a chunk announces. -/
theorem keeps_repaired : chunks.Keeps repaired where
  length := repairChunk_length
  size := by
    intro c xs ys size
    simp only [chunks, chunkSize, Option.ite_none_right_eq_some, Option.some.injEq] at size ⊢
    have header : 6 ≤ c.length := by omega
    have kept : (repaired c).take 6 = c.take 6 := by
      simp only [repaired, repairChunk]
      split
      · rw [List.take_append_of_le_length (by rw [List.length_take]; omega), List.take_take]
        rfl
      · rfl
    have length : (repaired c).length = c.length := repairChunk_length c
    have announced : ∀ d : List UInt8, 6 ≤ d.length → rd32 (d.take 6) 2 = rd32 d 2 := by
      intro d long
      have inside : 2 + 4 ≤ (d.take 6).length := by
        rw [List.length_take]
        omega
      have whole := rd32_append (d.take 6) (d.drop 6) 2 inside
      rw [List.take_append_drop] at whole
      exact whole.symm
    rw [rd32_append _ _ _ (by omega)] at size
    rw [rd32_append _ _ _ (by omega), ← announced _ (by omega), kept, announced c header]
    refine ⟨?_, size.2⟩
    rw [List.length_append]
    omega

end Chunks

section Window

/-- A payload in the complete chunks at the front of some bytes. -/
def FramedPayload (rest : List UInt8) (place size : Nat) : Prop :=
  ∃ k c j, chunks.FrameAt rest k c ∧ ChunkPayload c j size ∧ place = k + j

theorem framedPayload_cons {rest c after : List UInt8} (found : chunks.split rest = some (c, after))
    (place size : Nat) :
    FramedPayload rest place size ↔
      both c.length (ChunkPayload c) (FramedPayload after) place size := by
  constructor
  · rintro ⟨k, d, j, frame, here, rfl⟩
    rw [Framing.frameAt_iff found] at frame
    obtain ⟨rfl, rfl⟩ | ⟨k, rfl, frame⟩ := frame
    · left
      rwa [Nat.zero_add]
    · exact .inr ⟨k + j, by omega, k, d, j, frame, here, rfl⟩
  · rintro (here | ⟨_, rfl, k, d, j, frame, here, rfl⟩)
    · exact ⟨0, c, place, .here found, here, (Nat.zero_add place).symm⟩
    · exact ⟨c.length + k, d, j, .later found frame, here, by omega⟩

theorem repairChunks_repairs (rest : List UInt8) :
    Repaired rest (FramedPayload rest) (repairChunks rest).1 (repairChunks rest).2.2 := by
  refine Framing.walk_induction (F := chunks) ?_ ?_ rest
  · intro rest stop
    rw [repairChunks_none stop]
    refine (repaired_none rest).congr fun place size => ?_
    refine iff_of_false not_false ?_
    rintro ⟨k, c, j, frame, _⟩
    exact Framing.not_frameAt stop frame
  · intro rest c after found ih
    have whole := (repairChunk_repairs c).append ih
    rw [← (Framing.split_eq_some.mp found).2] at whole
    rw [repairChunks_some found]
    exact whole.congr fun place size => (framedPayload_cons found place size).symm

/-- A complete chunk that the walk from `start` reaches. -/
def ChunkAt (window : List UInt8) (start place : Nat) (chunk : List UInt8) : Prop :=
  ∃ k, chunks.FrameAt (window.drop start) k chunk ∧ place = start + k

/-- A payload that the repair from `start` scans. -/
def PayloadAt (window : List UInt8) (start place size : Nat) : Prop :=
  ∃ p chunk j, ChunkAt window start p chunk ∧ ChunkPayload chunk j size ∧ place = p + j

/-- The end of the last complete chunk that the walk reaches, `start` when it reaches none, and
the length of the window when `start` lies past it. -/
def WalkEnd (window : List UInt8) (start offset : Nat) : Prop :=
  if window.length < start then offset = window.length
  else
    (offset = start ∧ (∀ p chunk, ¬ChunkAt window start p chunk) ∨
      ∃ p chunk, ChunkAt window start p chunk ∧ offset = p + chunk.length) ∧
      ∀ p chunk, ChunkAt window start p chunk → p + chunk.length ≤ offset

variable {window : List UInt8} {start : Nat}

theorem payloadAt_iff (place size : Nat) : PayloadAt window start place size ↔
    both start (fun _ _ => False) (FramedPayload (window.drop start)) place size := by
  constructor
  · rintro ⟨_, c, j, ⟨k, frame, rfl⟩, here, rfl⟩
    exact .inr ⟨k + j, by omega, k, c, j, frame, here, rfl⟩
  · rintro (nothing | ⟨_, rfl, k, c, j, frame, here, rfl⟩)
    · exact nothing.elim
    · exact ⟨start + k, c, j, ⟨k, frame, rfl⟩, here, by omega⟩

theorem uefRepairFilevSpan_repairs (window : List UInt8) (start : Nat) :
    Repaired window (PayloadAt window start) (uefRepairFilevSpan window start).1
      (uefRepairFilevSpan window start).2.2 := by
  by_cases past : window.length < start
  · rw [uefRepairFilevSpan, if_pos past]
    refine (repaired_none window).congr fun place size => iff_of_false not_false ?_
    rintro ⟨_, c, j, ⟨k, frame, rfl⟩, _⟩
    rw [List.drop_of_length_le (by omega)] at frame
    exact Framing.not_frameAt Framing.split_nil frame
  · rw [uefRepairFilevSpan, if_neg past]
    have whole := (repaired_none (window.take start)).append (repairChunks_repairs (window.drop start))
    rw [List.take_append_drop, List.length_take, Nat.min_eq_left (by omega), Nat.zero_add] at whole
    exact whole.congr fun place size => (payloadAt_iff place size).symm

theorem uefRepairFilevSpan_mapFrames (inside : start ≤ window.length) :
    (uefRepairFilevSpan window start).1.drop start =
      chunks.mapFrames repaired (window.drop start) := by
  have length : (window.take start).length = start := by
    rw [List.length_take]
    omega
  rw [(uefRepairFilevSpan_inside window start inside).1, List.append_assoc, List.drop_append,
    List.drop_of_length_le (by omega), length, Nat.sub_self]
  rfl

/-- The walk over the repaired window reaches the same chunks, repaired. -/
theorem chunkAt_repaired (p : Nat) (chunk : List UInt8) :
    ChunkAt (uefRepairFilevSpan window start).1 start p chunk ↔
      ∃ before, ChunkAt window start p before ∧ chunk = repaired before := by
  by_cases past : window.length < start
  · have empty : ∀ bytes : List UInt8, bytes.length < start → ∀ c, ¬ChunkAt bytes start p c := by
      rintro bytes short c ⟨k, frame, _⟩
      rw [List.drop_of_length_le (by omega)] at frame
      exact Framing.not_frameAt Framing.split_nil frame
    refine iff_of_false (empty _ (by rwa [uefRepairFilevSpan_length]) chunk) ?_
    rintro ⟨before, frame, _⟩
    exact empty window past before frame
  · constructor
    · rintro ⟨k, frame, rfl⟩
      rw [uefRepairFilevSpan_mapFrames (by omega)] at frame
      obtain ⟨before, original, rfl⟩ := (Framing.frameAt_mapFrames keeps_repaired k).mp frame
      exact ⟨before, ⟨k, original, rfl⟩, rfl⟩
    · rintro ⟨before, ⟨k, frame, rfl⟩, rfl⟩
      refine ⟨k, ?_, rfl⟩
      rw [uefRepairFilevSpan_mapFrames (by omega)]
      exact (Framing.frameAt_mapFrames keeps_repaired k).mpr ⟨before, frame, rfl⟩

theorem payloadAt_repaired (place size : Nat) :
    PayloadAt (uefRepairFilevSpan window start).1 start place size ↔
      PayloadAt window start place size := by
  constructor
  · rintro ⟨p, chunk, j, reached, here, rfl⟩
    obtain ⟨before, original, rfl⟩ := (chunkAt_repaired p chunk).mp reached
    exact ⟨p, before, j, original, chunkPayload_repaired.mp here, rfl⟩
  · rintro ⟨p, before, j, reached, here, rfl⟩
    exact ⟨p, repaired before, j, (chunkAt_repaired p _).mpr ⟨before, reached, rfl⟩,
      chunkPayload_repaired.mpr here, rfl⟩

theorem uefRepairFilevSpan_end (window : List UInt8) (start : Nat) :
    WalkEnd window start (uefRepairFilevSpan window start).2.1 := by
  rw [WalkEnd]
  split
  next past => rw [uefRepairFilevSpan, if_pos past]
  next inside =>
    rw [(uefRepairFilevSpan_inside window start (by omega)).2]
    have walked := Framing.walk_end (F := chunks) (f := repaired) repairChunk_length
      (window.drop start)
    dsimp only at walked
    generalize (chunks.walk repaired (window.drop start)).1.length = framed at *
    obtain ⟨ends, within⟩ := walked
    constructor
    · obtain ⟨rfl, frameless⟩ | ⟨k, chunk, frame, rfl⟩ := ends
      · refine .inl ⟨rfl, ?_⟩
        rintro p chunk ⟨k, frame, _⟩
        exact frameless k chunk frame
      · exact .inr ⟨start + k, chunk, ⟨k, frame, rfl⟩, by omega⟩
    · rintro p chunk ⟨k, frame, rfl⟩
      have bound := within k chunk frame
      omega

theorem uefRepairFilevSpan_again (window : List UInt8) (start : Nat) :
    (uefRepairFilevSpan (uefRepairFilevSpan window start).1 start).2.1 =
      (uefRepairFilevSpan window start).2.1 := by
  have length := uefRepairFilevSpan_length window start
  by_cases inside : start ≤ window.length
  · rw [(uefRepairFilevSpan_inside _ start (by omega)).2, uefRepairFilevSpan_mapFrames inside,
      Framing.walk_mapFrames_length keeps_repaired, (uefRepairFilevSpan_inside window start inside).2]
  · have past : window.length < start := Nat.lt_of_not_ge inside
    have stays : uefRepairFilevSpan window start = (window, window.length, 0) := if_pos past
    rw [stays, stays]

/-- What a repair leaves when there is nothing to repair. -/
theorem Repaired.unchanged {data out : List UInt8} {payload : Nat → Nat → Prop} {count : Nat}
    (done : Repaired data payload out count) (nothing : ∀ q, ¬TokenIn data payload q) :
    out = data ∧ count = 0 := by
  constructor
  · apply List.ext_getElem?
    intro j
    refine done.others j (fun q token => absurd token (nothing q)) ?_
    rintro place size ⟨here, i, token⟩
    exact absurd ⟨place, size, i, here, token, rfl⟩ (nothing (place + i))
  · obtain ⟨places, _, members, length⟩ := done.counted
    rw [← length, List.length_eq_zero_iff, List.eq_nil_iff_forall_not_mem]
    intro q member
    exact nothing q ((members q).mp member)

/-- The repair changes exactly the tokens and CRCs of the payloads that it scans, counts the
tokens, keeps the walk, and has nothing to do a second time. -/
theorem filev_repair_exact (window : List UInt8) (start : Nat) :
    let after := uefRepairFilevSpan window start
    Repaired window (PayloadAt window start) after.1 after.2.2 ∧
      (∀ place size, PayloadAt after.1 start place size ↔ PayloadAt window start place size) ∧
      (∀ p length, (∃ chunk, ChunkAt after.1 start p chunk ∧ chunk.length = length) ↔
        ∃ chunk, ChunkAt window start p chunk ∧ chunk.length = length) ∧
      WalkEnd window start after.2.1 ∧
      uefRepairFilevSpan after.1 start = (after.1, after.2.1, 0) := by
  intro after
  have done := uefRepairFilevSpan_repairs window start
  refine ⟨done, payloadAt_repaired, ?_, uefRepairFilevSpan_end window start, ?_⟩
  · intro p length
    constructor
    · rintro ⟨_, reached, rfl⟩
      obtain ⟨before, original, rfl⟩ := (chunkAt_repaired p _).mp reached
      exact ⟨before, original, (repairChunk_length before).symm⟩
    · rintro ⟨before, original, rfl⟩
      exact ⟨repaired before, (chunkAt_repaired p _).mpr ⟨before, original, rfl⟩,
        repairChunk_length before⟩
  · have again := uefRepairFilevSpan_repairs after.1 start
    have same : PayloadAt after.1 start = PayloadAt window start :=
      funext fun place => funext fun size => propext (payloadAt_repaired place size)
    rw [same] at again
    obtain ⟨bytes, count⟩ := again.unchanged done.clean
    exact Prod.ext bytes (Prod.ext (uefRepairFilevSpan_again window start) count)

theorem payloadBytes_getElem? {data : List UInt8} {place size i : Nat} {byte : UInt8}
    (found : (payloadBytes data place size)[i]? = some byte) : data[place + i]? = some byte := by
  rw [payloadBytes, List.getElem?_take, Option.ite_none_right_eq_some, List.getElem?_drop] at found
  exact found.2

/-- The repair leaves an image as it is exactly when there is no token in its payloads. -/
theorem uefRepairFilevStamp_eq_iff {image : List UInt8} : (uefRepairFilevStamp image).1 = image ↔
    ∀ q, ¬TokenIn image (PayloadAt image uefRepairHeader) q := by
  have done := uefRepairFilevSpan_repairs image uefRepairHeader
  constructor
  · intro same q token
    have nine := (done.digits q token).1
    obtain ⟨place, size, i, _, token, rfl⟩ := token
    have two := payloadBytes_getElem? token.two
    rw [show (uefRepairFilevSpan image uefRepairHeader).1 = image from same, Nat.add_assoc, two]
      at nine
    exact absurd nine (by decide)
  · exact fun nothing => (done.unchanged nothing).1

end Window

end Pi1MHz.UefRepair
