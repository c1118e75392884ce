import Pi1MHz.Tape.Repair

/-! The address tokens of a payload. Redirecting one neither makes nor hides another, so the scan
that rewrites the bytes under itself finds the tokens that were there at first. -/
namespace Pi1MHz.UefRepair

/-- `?&212`, `!&212`, `?&213` or `!&213` at `i`, with no hexadecimal digit after it. -/
structure Token (data : List UInt8) (i : Nat) : Prop where
  lead : data[i]? = some (char '?') ∨ data[i]? = some (char '!')
  ampersand : data[i + 1]? = some (char '&')
  two : data[i + 2]? = some (char '2')
  one : data[i + 3]? = some (char '1')
  last : data[i + 4]? = some (char '2') ∨ data[i + 4]? = some (char '3')
  short : ∀ digit, data[i + 5]? = some digit → stampHexDigit digit = false

section Scan
variable {data : List UInt8} {i j : Nat}

theorem getD_eq_iff {c : UInt8} (visible : c ≠ 0) : data.getD i 0 = c ↔ data[i]? = some c := by
  rw [List.getD_eq_getElem?_getD]
  cases data[i]? with
  | none => simp [visible.symm]
  | some b => simp

theorem stampAt_zero : stampAt data 0 = false := by simp [stampAt]

theorem short_iff : (∀ digit, data[i]? = some digit → stampHexDigit digit = false) ↔
    (decide (i < data.length) && stampHexDigit (data.getD i 0)) = false := by
  rw [List.getD_eq_getElem?_getD]
  rcases Nat.lt_or_ge i data.length with inside | outside
  · simp [inside]
  · simp [Nat.not_lt.mpr outside]

/-- The test of the scan finds the tokens, by their `&`. -/
theorem stampAt_succ : stampAt data (i + 1) = true ↔ Token data i := by
  have mark : char '?' ≠ 0 ∧ char '!' ≠ 0 ∧ char '&' ≠ 0 := by decide
  have digit : char '1' ≠ 0 ∧ char '2' ≠ 0 ∧ char '3' ≠ 0 := by decide
  simp only [stampAt, Bool.and_eq_true, Bool.or_eq_true, beq_iff_eq, Bool.not_eq_true', bne_iff_ne,
    Nat.add_sub_cancel, getD_eq_iff mark.1, getD_eq_iff mark.2.1, getD_eq_iff mark.2.2,
    getD_eq_iff digit.1, getD_eq_iff digit.2.1, getD_eq_iff digit.2.2, ← short_iff]
  constructor
  · rintro ⟨⟨⟨⟨⟨⟨ampersand, two⟩, one⟩, last⟩, short⟩, _⟩, lead⟩
    exact ⟨lead, ampersand, two, one, last, short⟩
  · rintro ⟨lead, ampersand, two, one, last, short⟩
    exact ⟨⟨⟨⟨⟨⟨ampersand, two⟩, one⟩, last⟩, short⟩, Nat.succ_ne_zero i⟩, lead⟩

theorem Token.bound (token : Token data i) : i + 5 ≤ data.length := by
  rcases token.last with last | last <;>
    exact (List.getElem?_eq_some_iff.mp last).1

/-- Tokens do not overlap: none begins in the next four bytes. -/
theorem Token.apart (token : Token data i) (other : Token data j) (later : i < j) : i + 5 ≤ j := by
  by_contra close
  have lead := other.lead
  have places : j = i + 1 ∨ j = i + 2 ∨ j = i + 3 ∨ j = i + 4 := by omega
  rcases places with rfl | rfl | rfl | rfl
  · rw [token.ampersand] at lead
    revert lead
    decide
  · rw [token.two] at lead
    revert lead
    decide
  · rw [token.one] at lead
    revert lead
    decide
  · rcases token.last with last | last
    · rw [last] at lead
      revert lead
      decide
    · rw [last] at lead
      revert lead
      decide

/-- What the last digit of a token becomes. -/
def redirected (last : Option UInt8) : UInt8 := if last = some (char '2') then char '0' else char '1'

/-- The bytes after a token has been redirected. -/
theorem redirect_getElem? (token : Token data i) (j : Nat) :
    (redirect data (i + 1))[j]? =
      if j = i + 2 then some (char '9') else if j = i + 3 then some (char '0')
      else if j = i + 4 then some (redirected data[i + 4]?) else data[j]? := by
  have bound := token.bound
  have digit : (if data.getD (i + 1 + 3) 0 == char '2' then char '0' else char '1') =
      redirected data[i + 4]? := by
    simp only [redirected, beq_iff_eq, getD_eq_iff (show char '2' ≠ 0 by decide)]
  simp only [redirect, digit, List.getElem?_set, List.length_set]
  grind

/-- Redirecting a token leaves every other byte. -/
theorem redirect_elsewhere (token : Token data i) (outside : j < i + 2 ∨ i + 4 < j) :
    (redirect data (i + 1))[j]? = data[j]? := by
  rw [redirect_getElem? token, if_neg (by omega), if_neg (by omega), if_neg (by omega)]

/-- The digits written are not part of any token, but for the last. -/
theorem redirect_back {c : UInt8} (token : Token data i) (found : (redirect data (i + 1))[j]? = some c)
    (nine : c ≠ char '9') (zero : c ≠ char '0') (one : j ≠ i + 4 ∨ c ≠ char '1') :
    data[j]? = some c := by
  rw [redirect_getElem? token] at found
  split at found
  · exact absurd (Option.some.inj found).symm nine
  split at found
  · exact absurd (Option.some.inj found).symm zero
  split at found
  next last =>
    have written := Option.some.inj found
    rw [redirected] at written
    split at written
    · exact absurd written.symm zero
    · exact absurd written.symm (one.resolve_left (not_not_intro last))
  next => exact found

/-- Digits are redirected to digits. -/
theorem hexDigit_redirect (token : Token data i) (j : Nat) :
    (redirect data (i + 1))[j]?.map stampHexDigit = data[j]?.map stampHexDigit := by
  rw [redirect_getElem? token]
  split
  next place =>
    rw [place, token.two]
    decide
  split
  next place =>
    rw [place, token.one]
    decide
  split
  next place =>
    rw [place]
    rcases token.last with last | last
    · rw [last]
      decide
    · rw [last]
      decide
  rfl

theorem short_iff_map {digit : Option UInt8} :
    (∀ d, digit = some d → stampHexDigit d = false) ↔ digit.map stampHexDigit ≠ some true := by
  cases digit with
  | none => simp
  | some d => simp

/-- The other tokens are the same ones, and the token redirected is gone. -/
theorem token_redirect (token : Token data i) :
    Token (redirect data (i + 1)) j ↔ Token data j ∧ j ≠ i := by
  constructor
  · intro after
    have lead : data[j]? = some (char '?') ∨ data[j]? = some (char '!') :=
      after.lead.imp (redirect_back token · (by decide) (by decide) (.inr (by decide)))
        (redirect_back token · (by decide) (by decide) (.inr (by decide)))
    have apart : j ≠ i + 1 := by
      rintro rfl
      rw [token.ampersand] at lead
      revert lead
      decide
    have two := redirect_back token after.two (by decide) (by decide) (.inr (by decide))
    refine ⟨⟨lead, ?_, two, ?_, ?_, ?_⟩, ?_⟩
    · exact redirect_back token after.ampersand (by decide) (by decide) (.inr (by decide))
    · exact redirect_back token after.one (by decide) (by decide) (.inl (by omega))
    · exact after.last.imp (redirect_back token · (by decide) (by decide) (.inr (by decide)))
        (redirect_back token · (by decide) (by decide) (.inr (by decide)))
    · rw [short_iff_map, ← hexDigit_redirect token]
      exact short_iff_map.mp after.short
    · rintro rfl
      have nine := after.two
      rw [redirect_getElem? token, if_pos rfl] at nine
      revert nine
      decide
  · rintro ⟨before, other⟩
    have apart : i + 5 ≤ j ∨ j + 5 ≤ i := by
      rcases Nat.lt_or_gt_of_ne other with earlier | later
      · exact .inr (before.apart token earlier)
      · exact .inl (token.apart before later)
    have same : ∀ k, j ≤ k → k < j + 5 → (redirect data (i + 1))[k]? = data[k]? :=
      fun k low high => redirect_elsewhere token (by omega)
    refine ⟨?_, ?_, ?_, ?_, ?_, ?_⟩
    · rw [same j (by omega) (by omega)]
      exact before.lead
    · rw [same (j + 1) (by omega) (by omega)]
      exact before.ampersand
    · rw [same (j + 2) (by omega) (by omega)]
      exact before.two
    · rw [same (j + 3) (by omega) (by omega)]
      exact before.one
    · rw [same (j + 4) (by omega) (by omega)]
      exact before.last
    · rw [short_iff_map, hexDigit_redirect token]
      exact short_iff_map.mp before.short

/-- `out` is the payload with the tokens that satisfy `chosen` redirected, `count` of them. -/
structure Redirected (chosen : Nat → Prop) (data out : List UInt8) (count : Nat) : Prop where
  length : out.length = data.length
  digits : ∀ i, Token data i → chosen i → out[i + 2]? = some (char '9') ∧
    out[i + 3]? = some (char '0') ∧ out[i + 4]? = some (redirected data[i + 4]?)
  others : ∀ j, (∀ i, Token data i → chosen i → j < i + 2 ∨ i + 4 < j) → out[j]? = data[j]?
  tokens : ∀ i, Token out i ↔ Token data i ∧ ¬chosen i
  counted : ∃ places : List Nat, places.Nodup ∧ (∀ i, i ∈ places ↔ Token data i ∧ chosen i) ∧
    places.length = count

/-- Nothing is redirected when no token is chosen. -/
theorem redirected_none {chosen : Nat → Prop} (nothing : ∀ i, Token data i → ¬chosen i) :
    Redirected chosen data data 0 where
  length := rfl
  digits i token here := absurd here (nothing i token)
  others _ _ := rfl
  tokens i := ⟨fun token => ⟨token, nothing i token⟩, fun both => both.1⟩
  counted := ⟨[], List.nodup_nil, fun i => by simpa using nothing i, rfl⟩

/-- One more token redirected before the others. -/
theorem Redirected.cons {chosen : Nat → Prop} {out : List UInt8} {count : Nat}
    (token : Token data i) (fresh : ¬chosen i)
    (rest : Redirected chosen (redirect data (i + 1)) out count) :
    Redirected (fun j => j = i ∨ chosen j) data out (count + 1) := by
  have apart : ∀ j, Token data j → j ≠ i → i + 5 ≤ j ∨ j + 5 ≤ i := by
    intro j other different
    rcases Nat.lt_or_gt_of_ne different with earlier | later
    · exact .inr (other.apart token earlier)
    · exact .inl (token.apart other later)
  have own : ∀ j, i + 2 ≤ j → j ≤ i + 4 → out[j]? = (redirect data (i + 1))[j]? := by
    intro j low high
    apply rest.others
    intro k other _
    have place := apart k (token_redirect token |>.mp other).1 (token_redirect token |>.mp other).2
    omega
  constructor
  · rw [rest.length, redirect_length]
  · intro j other here
    by_cases same : j = i
    · subst same
      rw [own _ (by omega) (by omega), own _ (by omega) (by omega), own _ (by omega) (by omega)]
      simp [redirect_getElem? token]
    · have place := apart j other same
      have digits := rest.digits j ((token_redirect token).mpr ⟨other, same⟩)
        (here.resolve_left same)
      rwa [redirect_elsewhere (j := j + 4) token (by omega)] at digits
  · intro j outside
    have place := outside i token (.inl rfl)
    rw [← redirect_elsewhere token place]
    apply rest.others
    intro k other here
    exact outside k (token_redirect token |>.mp other).1 (.inr here)
  · intro j
    rw [rest.tokens, token_redirect token, not_or, and_assoc]
  · obtain ⟨places, nodup, members, length⟩ := rest.counted
    refine ⟨i :: places, ?_, ?_, ?_⟩
    · rw [List.nodup_cons]
      exact ⟨fun member => fresh ((members i).mp member).2, nodup⟩
    · intro j
      rw [List.mem_cons, members, token_redirect token]
      constructor
      · rintro (rfl | ⟨⟨other, _⟩, here⟩)
        · exact ⟨token, .inl rfl⟩
        · exact ⟨other, .inr here⟩
      · rintro ⟨other, same | here⟩
        · exact .inl same
        · exact .inr ⟨⟨other, fun same => fresh (same ▸ here)⟩, here⟩
    · rw [List.length_cons, length]

theorem Redirected.congr {chosen wanted : Nat → Prop} {out : List UInt8} {count : Nat}
    (done : Redirected chosen data out count)
    (same : ∀ i, Token data i → (chosen i ↔ wanted i)) : Redirected wanted data out count where
  length := done.length
  digits i token here := done.digits i token ((same i token).mpr here)
  others j outside := done.others j fun i token here => outside i token ((same i token).mp here)
  tokens i := by
    rw [done.tokens]
    exact and_congr_right fun token => not_congr (same i token)
  counted := by
    obtain ⟨places, nodup, members, length⟩ := done.counted
    refine ⟨places, nodup, fun i => ?_, length⟩
    rw [members]
    exact and_congr_right (same i)

/-- The scan redirects the tokens whose `&` it still has before it. -/
theorem repairFrom_redirects (i : Nat) (data : List UInt8) (count : Nat) :
    ∃ hits, (repairFrom i data count).2 = count + hits ∧
      Redirected (fun j => i ≤ j + 1) data (repairFrom i data count).1 hits := by
  induction i, data, count using repairFrom.induct with
  | case1 i data count room stamp ih =>
    obtain ⟨hits, counted, done⟩ := ih
    rw [repairFrom, if_pos room, if_pos stamp]
    cases i with
    | zero => simp [stampAt_zero] at stamp
    | succ i =>
      have token := stampAt_succ.mp stamp
      refine ⟨hits + 1, by rw [counted]; omega, ?_⟩
      refine (done.cons token (by omega)).congr fun j _ => ?_
      omega
  | case2 i data count room plain ih =>
    obtain ⟨hits, counted, done⟩ := ih
    rw [repairFrom, if_pos room, if_neg plain]
    refine ⟨hits, counted, done.congr fun j token => ?_⟩
    have other : i ≠ j + 1 := by
      rintro rfl
      exact plain (stampAt_succ.mpr token)
    omega
  | case3 i data count done =>
    rw [repairFrom, if_neg done]
    refine ⟨0, rfl, redirected_none fun j token => ?_⟩
    have bound := token.bound
    omega

/-- The scan of a whole payload redirects every token in it. -/
theorem repairBlockPayload_redirects (data : List UInt8) :
    Redirected (fun _ => True) data (repairBlockPayload data).1 (repairBlockPayload data).2 := by
  obtain ⟨hits, counted, done⟩ := repairFrom_redirects 0 data 0
  rw [Nat.zero_add] at counted
  rw [repairBlockPayload, counted]
  exact done.congr fun j _ => iff_of_true (Nat.zero_le _) trivial

end Scan

end Pi1MHz.UefRepair
