import Mathlib.Algebra.Ring.Nat
import Mathlib.Data.List.Induction
import Mathlib.Data.List.TakeWhile
import Pi1MHz.Net.Targets

/-! What the target builders come to on any tail, and when that is safe. -/
namespace Pi1MHz.Targets

section Positions

variable {tail : CommandTail} {y : UInt8} {rest : List UInt8}

theorem CommandTail.page_split (tail : CommandTail) : ∃ more, tail.page = tail.text ++ 13 :: more := by
  obtain ⟨y, cr⟩ := tail.ended
  have member : (13 : UInt8) ∈ tail.page :=
    List.mem_map.mpr ⟨y.toNat, List.mem_range.mpr y.toNat_lt, by rw [UInt8.ofNat_toNat, cr]⟩
  have split : tail.page = tail.text ++ tail.page.dropWhile (· ≠ 13) :=
    List.takeWhile_append_dropWhile.symm
  have head := List.head?_dropWhile_not (· ≠ 13) tail.page
  cases left : tail.page.dropWhile (· ≠ 13) with
  | nil =>
    rw [left, List.append_nil] at split
    rw [split] at member
    simpa using List.mem_takeWhile_imp member
  | cons first more =>
    rw [left] at head
    have same : first = 13 := by simpa using head
    exact ⟨more, by rw [split, left, same]⟩

theorem CommandTail.text_length (tail : CommandTail) : tail.text.length < 256 := by
  obtain ⟨more, split⟩ := tail.page_split
  have size := congrArg List.length split
  simp only [page, List.length_map, List.length_range, List.length_append, List.length_cons] at size
  omega

theorem CommandTail.bytes_page {more : List UInt8} {before : List UInt8} {byte : UInt8} (tail : CommandTail)
    (split : tail.page = before ++ byte :: more) : tail.bytes (UInt8.ofNat before.length) = byte := by
  have here : tail.page[before.length]? = some byte := by
    rw [split]
    simp
  rw [page, List.getElem?_map, Option.map_eq_some_iff] at here
  obtain ⟨i, place, same⟩ := here
  obtain ⟨inside, value⟩ := List.getElem?_eq_some_iff.mp place
  rw [List.getElem_range] at value
  rw [value]
  exact same

/-- Y is where `rest` of the text begins. -/
def CommandTail.At (tail : CommandTail) (y : UInt8) (rest : List UInt8) : Prop :=
  ∃ before, tail.text = before ++ rest ∧ y = UInt8.ofNat before.length

theorem CommandTail.at_start (tail : CommandTail) : tail.At 0 tail.text := ⟨[], rfl, rfl⟩

theorem CommandTail.At.byte {byte : UInt8} (here : tail.At y (byte :: rest)) : tail.bytes y = byte := by
  obtain ⟨before, text, rfl⟩ := here
  obtain ⟨more, split⟩ := tail.page_split
  rw [text, List.append_assoc] at split
  exact tail.bytes_page split

theorem CommandTail.At.cr (here : tail.At y []) : tail.bytes y = 13 := by
  obtain ⟨before, text, rfl⟩ := here
  obtain ⟨more, split⟩ := tail.page_split
  rw [text, List.append_nil] at split
  exact tail.bytes_page split

theorem CommandTail.At.next {byte : UInt8} (here : tail.At y (byte :: rest)) : tail.At (y + 1) rest := by
  obtain ⟨before, text, rfl⟩ := here
  refine ⟨before ++ [byte], by simp [text], ?_⟩
  rw [List.length_append, List.length_singleton, UInt8.ofNat_add]
  rfl

/-- Y does not wrap inside the text. -/
theorem CommandTail.At.next_ne {byte : UInt8} (here : tail.At y (byte :: rest)) : y + 1 ≠ 0 := by
  obtain ⟨before, text, rfl⟩ := here
  have short := tail.text_length
  rw [text, List.length_append, List.length_cons] at short
  intro wrapped
  have place := congrArg UInt8.toNat wrapped
  rw [UInt8.toNat_add, UInt8.toNat_ofNat', UInt8.toNat_one, UInt8.toNat_zero] at place
  omega

end Positions

section Runs

variable {tail : CommandTail} {y : UInt8} {rest : List UInt8} {fuel : Nat} {s : Copy}

theorem skipSpaces_at (here : tail.At y rest) (enough : rest.length < fuel) :
    ∃ next, skipSpaces tail.bytes fuel y = some next ∧ tail.At next (afterSpaces rest) := by
  induction rest generalizing fuel y with
  | nil =>
    obtain ⟨fuel, rfl⟩ : ∃ less, fuel = less + 1 := ⟨fuel - 1, by omega⟩
    exact ⟨y, by rw [skipSpaces, here.cr]; rfl, here⟩
  | cons first rest ih =>
    rw [List.length_cons] at enough
    obtain ⟨fuel, rfl⟩ : ∃ less, fuel = less + 1 := ⟨fuel - 1, by omega⟩
    rw [skipSpaces, here.byte]
    by_cases space : first = 32
    · rw [if_neg (not_not.mpr space), if_neg here.next_ne, afterSpaces,
        List.dropWhile_cons_of_pos (by simpa using space)]
      exact ih here.next (by omega)
    · rw [if_pos space, afterSpaces, List.dropWhile_cons_of_neg (by simpa using space)]
      exact ⟨y, rfl, here⟩

/-- From the space after the host on. -/
theorem skipPortSpace_at (here : tail.At y (32 :: rest)) (enough : rest.length < fuel) :
    ∃ next, skipPortSpace tail.bytes fuel y = some next ∧ tail.At next (afterSpaces rest) := by
  induction rest generalizing fuel y with
  | nil =>
    obtain ⟨fuel, rfl⟩ : ∃ less, fuel = less + 1 := ⟨fuel - 1, by omega⟩
    exact ⟨y + 1, by rw [skipPortSpace, here.next.cr]; rfl, here.next⟩
  | cons first rest ih =>
    rw [List.length_cons] at enough
    obtain ⟨fuel, rfl⟩ : ∃ less, fuel = less + 1 := ⟨fuel - 1, by omega⟩
    rw [skipPortSpace, here.next.byte]
    by_cases space : first = 32
    · subst space
      rw [if_pos rfl, afterSpaces, List.dropWhile_cons_of_pos (by simp)]
      exact ih here.next (by omega)
    · rw [if_neg space, afterSpaces, List.dropWhile_cons_of_neg (by simpa using space)]
      exact ⟨y + 1, rfl, here.next⟩

@[simp] theorem Copy.put_x (s : Copy) (value : UInt8) : (s.put value).x = s.x + 1 := rfl

theorem Copy.puts_cons (s : Copy) (value : UInt8) (values : List UInt8) :
    s.puts (value :: values) = (s.put value).puts values := rfl

theorem Copy.puts_append (s : Copy) (first second : List UInt8) :
    s.puts (first ++ second) = (s.puts first).puts second := List.foldl_append

/-- Y plays no part in what is stored. -/
theorem Copy.puts_setY (s : Copy) (values : List UInt8) (y : UInt8) :
    { s with y }.puts values = { s.puts values with y } := by
  induction values generalizing s with
  | nil => rfl
  | cons value values ih => exact ih (s.put value)

variable {stops : UInt8 → Bool} {limit : Option UInt8}

/-- A field that is within the limit is copied up to the byte that stops it. -/
theorem copyUntil_field (here : tail.At s.y rest) (stop : stops 13 = true) (enough : rest.length < fuel)
    (room : ∀ bound, limit = some bound →
      s.x.toNat + (rest.takeWhile (!stops ·)).length < bound.toNat) :
    ∃ y, tail.At y (rest.dropWhile (!stops ·)) ∧
      copyUntil tail.bytes stops limit fuel s =
        some ({ s.puts (rest.takeWhile (!stops ·)) with y }, true) := by
  induction rest generalizing fuel s with
  | nil =>
    obtain ⟨fuel, rfl⟩ : ∃ less, fuel = less + 1 := ⟨fuel - 1, by omega⟩
    exact ⟨s.y, here, by rw [copyUntil, here.cr, if_pos stop]; rfl⟩
  | cons first rest ih =>
    rw [List.length_cons] at enough
    obtain ⟨fuel, rfl⟩ : ∃ less, fuel = less + 1 := ⟨fuel - 1, by omega⟩
    rw [copyUntil, here.byte]
    by_cases stopped : stops first = true
    · rw [if_pos stopped, List.takeWhile_cons_of_neg (by simp [stopped]),
        List.dropWhile_cons_of_neg (by simp [stopped])]
      exact ⟨s.y, here, rfl⟩
    · have taken : (first :: rest).takeWhile (!stops ·) = first :: rest.takeWhile (!stops ·) :=
        List.takeWhile_cons_of_pos (by simpa using stopped)
      have dropped : (first :: rest).dropWhile (!stops ·) = rest.dropWhile (!stops ·) :=
        List.dropWhile_cons_of_pos (by simpa using stopped)
      rw [taken] at room
      rw [if_neg stopped, taken, dropped]
      have more : ∀ bound, limit = some bound →
          (s.x + 1).toNat + (rest.takeWhile (!stops ·)).length < bound.toNat := by
        intro bound is
        have size := room bound is
        have small := bound.toNat_lt
        rw [List.length_cons] at size
        rw [UInt8.toNat_add, UInt8.toNat_one]
        omega
      have open_ : ¬ limit.any (· ≤ s.x + 1) = true := by
        cases limit with
        | none => simp
        | some bound =>
          have size := more bound rfl
          simp only [Option.any_some, decide_eq_true_eq, UInt8.le_iff_toNat_le]
          omega
      obtain ⟨y, next, ran⟩ := @ih fuel { s.put first with y := s.y + 1 } here.next (by omega) more
      refine ⟨y, next, Eq.trans (if_neg open_) (ran.trans ?_)⟩
      rw [Copy.puts_setY, Copy.puts_cons]

/-- A field that reaches the limit is given up there. -/
theorem copyUntil_refused {bound : UInt8} (here : tail.At s.y rest) (enough : rest.length < fuel)
    (below : s.x < bound) (long : bound.toNat ≤ s.x.toNat + (rest.takeWhile (!stops ·)).length) :
    ∃ y, copyUntil tail.bytes stops (some bound) fuel s =
      some ({ s.puts ((rest.takeWhile (!stops ·)).take (bound.toNat - s.x.toNat)) with y }, false) := by
  rw [UInt8.lt_iff_toNat_lt] at below
  induction rest generalizing fuel s with
  | nil =>
    rw [List.takeWhile_nil, List.length_nil] at long
    omega
  | cons first rest ih =>
    rw [List.length_cons] at enough
    obtain ⟨fuel, rfl⟩ : ∃ less, fuel = less + 1 := ⟨fuel - 1, by omega⟩
    by_cases stopped : stops first = true
    · rw [List.takeWhile_cons_of_neg (by simp [stopped]), List.length_nil] at long
      omega
    · have taken : (first :: rest).takeWhile (!stops ·) = first :: rest.takeWhile (!stops ·) :=
        List.takeWhile_cons_of_pos (by simpa using stopped)
      have small := bound.toNat_lt
      have next : (s.x + 1).toNat = s.x.toNat + 1 := by
        rw [UInt8.toNat_add, UInt8.toNat_one]
        omega
      obtain ⟨left, count⟩ : ∃ left, bound.toNat - s.x.toNat = left + 1 :=
        ⟨bound.toNat - s.x.toNat - 1, by omega⟩
      rw [taken, List.length_cons] at long
      rw [copyUntil, here.byte, if_neg stopped, taken, count, List.take_succ_cons, Copy.puts_cons]
      dsimp only
      by_cases reached : bound.toNat ≤ s.x.toNat + 1
      · have none_left : left = 0 := by omega
        refine ⟨s.y, ?_⟩
        rw [Copy.put_x, if_pos (by simpa [UInt8.le_iff_toNat_le, next] using reached), none_left,
          List.take_zero]
        rfl
      · obtain ⟨y, ran⟩ := @ih fuel { s.put first with y := s.y + 1 } here.next (by omega)
          (by rw [Copy.put_x, next]; omega) (by rw [Copy.put_x, next]; omega)
        have open_ : ¬ (some bound).any (· ≤ s.x + 1) = true := by
          simpa [UInt8.le_iff_toNat_le, next] using reached
        have same : bound.toNat - (s.put first).x.toNat = left := by
          rw [Copy.put_x]
          omega
        refine ⟨y, Eq.trans (if_neg open_) (ran.trans ?_)⟩
        rw [Copy.puts_setY, same]

end Runs

section Stores

variable {s : Copy}

theorem Copy.puts_x (s : Copy) (values : List UInt8) :
    (s.puts values).x = s.x + UInt8.ofNat values.length := by
  induction values generalizing s with
  | nil => exact (UInt8.add_zero s.x).symm
  | cons value values ih =>
    rw [puts_cons, ih, put_x, List.length_cons, Nat.add_comm, UInt8.ofNat_add, ← UInt8.add_assoc]
    rfl

/-- The stores go to one offset after the other. -/
theorem Copy.puts_stores (s : Copy) (values : List UInt8) :
    (s.puts values).stores =
      s.stores ++ (List.range values.length).map fun i => s.x + UInt8.ofNat i := by
  induction values generalizing s with
  | nil => simp [puts]
  | cons value values ih =>
    have later : (List.range values.length).map (fun i => s.x + 1 + UInt8.ofNat i) =
        (List.range values.length).map fun i => s.x + UInt8.ofNat (i + 1) := by
      refine List.map_congr_left fun i _ => ?_
      rw [Nat.add_comm, UInt8.ofNat_add, UInt8.add_assoc]
      rfl
    have first : s.x + UInt8.ofNat 0 = s.x := UInt8.add_zero s.x
    rw [puts_cons, ih, put_x, later, List.length_cons, List.range_succ_eq_map, List.map_cons,
      List.map_map, first]
    change s.stores ++ [s.x] ++ _ = _
    rw [List.append_assoc, List.singleton_append]
    rfl

/-- A buffer from its start on. -/
def fresh (buffer : Memory UInt8) : Copy := ⟨0, 0, buffer, []⟩

theorem fresh_stores (buffer : Memory UInt8) (values : List UInt8) (bound : UInt8) :
    (∀ offset ∈ ((fresh buffer).puts values).stores, offset < bound) ↔
      values.length ≤ bound.toNat := by
  have small := bound.toNat_lt
  rw [Copy.puts_stores]
  simp only [fresh, List.nil_append, List.mem_map, List.mem_range, UInt8.zero_add]
  constructor
  · intro inside
    by_contra long
    have last := inside bound ⟨bound.toNat, by omega, UInt8.ofNat_toNat⟩
    exact absurd last (UInt8.lt_irrefl bound)
  · rintro short _ ⟨i, below, rfl⟩
    rw [UInt8.lt_iff_toNat_lt, UInt8.toNat_ofNat']
    omega

theorem fresh_read (buffer : Memory UInt8) (values : List UInt8) (short : values.length ≤ 256) :
    ((fresh buffer).puts values).buffer.read 0 values.length = values := by
  induction values using List.reverseRecOn with
  | nil => rfl
  | append_singleton values value ih =>
    rw [List.length_append, List.length_singleton] at short
    have place : ((fresh buffer).puts values).x.toNat = values.length := by
      rw [Copy.puts_x, fresh, UInt8.zero_add, UInt8.toNat_ofNat']
      omega
    have before := ih (by omega)
    have stored : ((fresh buffer).puts (values ++ [value])).buffer =
        ((fresh buffer).puts values).buffer.write values.length [value] := by
      rw [Copy.puts_append, ← place]
      rfl
    rw [stored]
    exact Memory.read_write_snoc _ _ _ before

end Stores

section Fields

variable {tail : CommandTail} {client : Client} {fuel : Nat} {s username : Copy} {y : UInt8}
  {rest : List UInt8}

theorem CommandTail.At.byte_iff {byte : UInt8} (here : tail.At y rest) (other : byte ≠ 13) :
    tail.bytes y = byte ↔ rest.head? = some byte := by
  cases rest with
  | nil => simp [here.cr, other.symm]
  | cons first rest => simp [here.byte]

theorem CommandTail.At.length (here : tail.At y rest) : rest.length < 256 := by
  obtain ⟨before, text, -⟩ := here
  have short := tail.text_length
  rw [text, List.length_append] at short
  omega

/-- From the host on, what an accepted target adds to the buffer. -/
def Client.written (client : Client) (text : List UInt8) : List UInt8 :=
  client.host text ++
    (if (client.afterHost text).head? = some 32 then 58 :: client.port text else client.noPort) ++ [47, 0]

/-- The loop of `client` over its host and port. -/
def Client.hostAndPort (client : Client) (tail : CommandTail) (fuel : Nat) (s username : Copy) :
    Option Built :=
  Targets.hostAndPort tail.bytes fuel (fun byte => byte = 32 || client.ends byte) client.hostLimit
    client.noPort s username

theorem Client.ends_cr (client : Client) : client.ends 13 = true := by
  cases client <;> rfl

theorem hostAndPort_refused {text : List UInt8} (here : tail.At s.y (client.hostText text))
    (enough : 256 ≤ fuel) (below : s.x < client.hostLimit)
    (long : client.hostLimit.toNat ≤ s.x.toNat + (client.host text).length) :
    ∃ y, client.hostAndPort tail fuel s username =
      some ⟨false, { s.puts ((client.host text).take (client.hostLimit.toNat - s.x.toNat)) with y },
        username⟩ := by
  have size := here.length
  obtain ⟨y, ran⟩ := @copyUntil_refused tail _ fuel s (fun byte => byte = 32 || client.ends byte)
    client.hostLimit here (by omega) below long
  exact ⟨y, by rw [Client.hostAndPort, Targets.hostAndPort, ran]; rfl⟩

theorem hostAndPort_accepted {text : List UInt8} (here : tail.At s.y (client.hostText text))
    (enough : 256 ≤ fuel) (short : s.x.toNat + (client.host text).length < client.hostLimit.toNat) :
    ∃ done, client.hostAndPort tail fuel s username = some ⟨true, done, username⟩ ∧
      done.buffer = (s.puts (client.written text)).buffer ∧
      done.stores = (s.puts (client.written text)).stores := by
  have stop : (decide ((13 : UInt8) = 32) || client.ends 13) = true := by
    rw [client.ends_cr, Bool.or_true]
  have size := here.length
  obtain ⟨y, atEnd, ran⟩ := @copyUntil_field tail _ fuel s (fun byte => byte = 32 || client.ends byte)
    (some client.hostLimit) here stop (by omega) (by
      rintro _ ⟨⟩
      exact short)
  have space := @CommandTail.At.byte_iff _ _ _ 32 atEnd (by decide)
  rw [Client.hostAndPort, Targets.hostAndPort, ran, Option.bind_some]
  simp only [Bool.not_true, Bool.false_eq_true, if_false]
  by_cases typed : (client.afterHost text).head? = some 32
  · obtain ⟨more, split⟩ : ∃ more, client.afterHost text = 32 :: more := by
      cases found : client.afterHost text with
      | nil => rw [found] at typed; cases typed
      | cons first more =>
        rw [found] at typed
        cases typed
        exact ⟨more, rfl⟩
    have atSpace : tail.At y (32 :: more) := split ▸ atEnd
    have bound := atSpace.length
    rw [List.length_cons] at bound
    obtain ⟨next, skipped, atPort⟩ := skipPortSpace_at atSpace (show more.length < fuel by omega)
    have same : afterSpaces more = afterSpaces (client.afterHost text) := by
      rw [split, afterSpaces, afterSpaces, List.dropWhile_cons_of_pos (by simp)]
    rw [same] at atPort
    have portSize := atPort.length
    let begun : Copy := { (s.puts (client.host text)).put 58 with y := next }
    obtain ⟨last, -, copied⟩ := @copyUntil_field tail _ fuel begun
      (fun byte => byte = 32 || client.ends byte) none atPort stop (by omega) (by rintro _ ⟨⟩)
    refine ⟨finish { begun.puts (client.port text) with y := last }, ?_, ?_, ?_⟩
    · rw [if_pos (space.mpr typed)]
      change (skipPortSpace tail.bytes fuel y).bind _ = _
      rw [skipped, Option.bind_some]
      change (copyUntil tail.bytes _ none fuel begun).bind _ = _
      rw [copied]
      rfl
    · rw [Client.written, if_pos typed, Copy.puts_append, Copy.puts_append, Copy.puts_cons]
      simp only [begun, Copy.puts_setY]
      rfl
    · rw [Client.written, if_pos typed, Copy.puts_append, Copy.puts_append, Copy.puts_cons]
      simp only [begun, Copy.puts_setY]
      rfl
  · refine ⟨finish ({ s.puts (client.host text) with y }.puts client.noPort), ?_, ?_, ?_⟩
    · rw [if_neg (mt space.mp typed)]
      rfl
    · rw [Client.written, if_neg typed, Copy.puts_append, Copy.puts_append, Copy.puts_setY]
      rfl
    · rw [Client.written, if_neg typed, Copy.puts_append, Copy.puts_append, Copy.puts_setY]
      rfl

end Fields

section Outcomes

variable {tail : CommandTail} {client : Client} {fuel : Nat} {url username : Memory UInt8}

/-- Stores inside the two buffers. -/
def Inside (done : Built) : Prop :=
  (∀ offset ∈ done.url.stores, offset < 192) ∧ ∀ offset ∈ done.username.stores, offset < 64

theorem fresh_put_stores (buffer : Memory UInt8) {values : List UInt8} (short : values.length < 63) :
    ∀ offset ∈ (((fresh buffer).puts values).store 0).stores, offset < 64 := by
  have whole : (((fresh buffer).puts values).store 0).stores =
      ((fresh buffer).puts (values ++ [0])).stores := by
    rw [Copy.puts_append]
    rfl
  rw [whole, fresh_stores, List.length_append, List.length_singleton]
  exact Nat.le_of_lt (Nat.succ_lt_succ short)

/-- From behind the prefix: either the host is too long and nothing is stored past the limit, or
everything is written. -/
theorem hostAndPort_from {s name : Copy} {text : List UInt8} (here : tail.At s.y (client.hostText text))
    (enough : 256 ≤ fuel) (start : s = { (fresh url).puts client.scheme with y := s.y }) :
    (client.scheme.length + (client.host text).length < client.hostLimit.toNat →
      ∃ done, client.hostAndPort tail fuel s name = some ⟨true, done, name⟩ ∧
        done.buffer = ((fresh url).puts (client.scheme ++ client.written text)).buffer ∧
        done.stores = ((fresh url).puts (client.scheme ++ client.written text)).stores) ∧
      (¬ client.scheme.length + (client.host text).length < client.hostLimit.toNat →
        ∃ done, client.hostAndPort tail fuel s name = some ⟨false, done, name⟩ ∧
          ∀ offset ∈ done.stores, offset < 192) := by
  have place : s.x.toNat = client.scheme.length := by
    rw [start]
    change ((fresh url).puts client.scheme).x.toNat = _
    rw [Copy.puts_x]
    cases client <;> rfl
  have limits : client.scheme.length < client.hostLimit.toNat ∧ client.hostLimit.toNat ≤ 192 := by
    cases client <;> decide
  constructor
  · intro short
    obtain ⟨done, ran, buffer, stores⟩ := @hostAndPort_accepted tail client fuel s name text here enough
      (by rw [place]; exact short)
    refine ⟨done, ran, ?_, ?_⟩
    · rw [buffer, start, Copy.puts_setY, Copy.puts_append]
    · rw [stores, start, Copy.puts_setY, Copy.puts_append]
  · intro long
    obtain ⟨y, ran⟩ := @hostAndPort_refused tail client fuel s name text here enough
      (by rw [UInt8.lt_iff_toNat_lt, place]; exact limits.1) (by rw [place]; omega)
    refine ⟨_, ran, ?_⟩
    rw [start, Copy.puts_setY]
    change ∀ offset ∈ (((fresh url).puts client.scheme).puts _).stores, offset < 192
    rw [← Copy.puts_append, fresh_stores, List.length_append, List.length_take]
    change _ ≤ 192
    have x : ({ (fresh url).puts client.scheme with y := s.y } : Copy).x.toNat =
        client.scheme.length := by
      rw [← start]
      exact place
    rw [x]
    omega

/-- A success that has written the whole target. -/
structure Whole (client : Client) (text : List UInt8) (url : Memory UInt8) (done : Built) : Prop where
  success : done.success = true
  buffer : done.url.buffer = ((fresh url).puts (client.scheme ++ client.written text)).buffer
  stores : done.url.stores = ((fresh url).puts (client.scheme ++ client.written text)).stores
  name : ∀ offset ∈ done.username.stores, offset < 64

/-- What a builder comes to: the whole target where it accepts the tail, else a failure that has
stored inside its buffers. -/
structure Comes (client : Client) (text : List UInt8) (url : Memory UInt8) (result : Option Built) :
    Prop where
  accepted : client.Accepts text → ∃ done, result = some done ∧ Whole client text url done
  refused : ¬ client.Accepts text → ∃ done, result = some done ∧ done.success = false ∧ Inside done

/-- The target is named; the rest is up to the host. -/
theorem Comes.of_host {s name : Copy} (named : client.Named tail.text)
    (here : tail.At s.y (client.hostText tail.text)) (enough : 256 ≤ fuel)
    (start : s = { (fresh url).puts client.scheme with y := s.y })
    (stores : ∀ offset ∈ name.stores, offset < 64) :
    Comes client tail.text url (client.hostAndPort tail fuel s name) := by
  obtain ⟨short, long⟩ := @hostAndPort_from tail client fuel url s name tail.text here enough start
  constructor
  · intro accepts
    obtain ⟨done, ran, buffer, written⟩ := short accepts.2
    exact ⟨_, ran, rfl, buffer, written, stores⟩
  · intro refuses
    obtain ⟨done, ran, inside⟩ := long fun fits => refuses ⟨named, fits⟩
    exact ⟨_, ran, rfl, inside, stores⟩

theorem Comes.of_unnamed {done : Built} (unnamed : ¬ client.Named tail.text)
    (failed : done.success = false) (inside : Inside done) :
    Comes client tail.text url (some done) where
  accepted accepts := absurd accepts.1 unnamed
  refused _ := ⟨done, rfl, failed, inside⟩

theorem named_iff (user : client ≠ .telnet) (text : List UInt8) :
    client.Named text ↔ ((afterSpaces text).takeWhile client.inName).length < 63 ∧
      ((afterSpaces text).dropWhile client.inName).head? = some 64 := by
  cases client with
  | telnet => exact absurd rfl user
  | ssh => exact Iff.rfl
  | sftp => exact Iff.rfl

/-- The builder of SSH and SFTP. -/
theorem buildTarget_comes (user : client ≠ .telnet) (enough : 256 ≤ fuel) :
    Comes client tail.text url (buildTarget tail.bytes fuel client.ends url username) := by
  have short := tail.text_length
  obtain ⟨y, skipped, atName⟩ := @skipSpaces_at tail 0 _ fuel tail.at_start (by omega)
  have size := atName.length
  let stops : UInt8 → Bool := fun byte => byte = 64 || client.ends byte || byte = 32
  have inName : (!stops ·) = client.inName := by
    funext byte
    simp only [stops, Client.inName, Client.inField]
    grind
  have stop : stops 13 = true := by
    simp only [stops, client.ends_cr]
    rfl
  let start : Copy := { fresh username with y }
  have bound : (63 : UInt8).toNat = 63 := rfl
  rw [buildTarget, skipped, Option.bind_some]
  change Comes client tail.text url ((copyUntil tail.bytes stops (some 63) fuel start).bind _)
  by_cases fits : ((afterSpaces tail.text).takeWhile client.inName).length < 63
  · obtain ⟨last, atEnd, copied⟩ := @copyUntil_field tail _ fuel start stops (some 63) atName stop
      (by omega) (by
        rintro _ ⟨⟩
        rw [inName, bound]
        exact (Nat.zero_add _).symm ▸ fits)
    rw [inName] at atEnd copied
    rw [copied, Option.bind_some]
    let name : Copy := { start.puts ((afterSpaces tail.text).takeWhile client.inName) with y := last }
    change Comes client tail.text url
      (if !true || decide (tail.bytes last ≠ 64) then some ⟨false, ⟨0, last, url, []⟩, name⟩
      else hostAndPort tail.bytes fuel (fun byte => byte = 32 || client.ends byte) 180 [58, 50, 50]
        ((⟨0, last + 1, url, []⟩ : Copy).puts tcpPrefix) (name.store 0))
    have stores : ∀ offset ∈ (name.store 0).stores, offset < 64 := by
      have inside := fresh_put_stores username fits
      simp only [name, start, Copy.puts_setY]
      exact inside
    have ends := @CommandTail.At.byte_iff _ _ _ 64 atEnd (by decide)
    by_cases «at» : ((afterSpaces tail.text).dropWhile client.inName).head? = some 64
    · obtain ⟨more, split⟩ := List.head?_eq_some_iff.mp «at»
      rw [split] at atEnd
      have hostText : client.hostText tail.text = more := by
        cases client with
        | telnet => exact absurd rfl user
        | ssh => exact congrArg (List.drop 1) split
        | sftp => exact congrArg (List.drop 1) split
      rw [if_neg (by simp [atEnd.byte])]
      have scheme : client.scheme = tcpPrefix := by
        cases client with
        | telnet => exact absurd rfl user
        | ssh => rfl
        | sftp => rfl
      have host := @Comes.of_host tail client fuel url ((⟨0, last + 1, url, []⟩ : Copy).puts tcpPrefix)
        (name.store 0) ((named_iff user _).mpr ⟨fits, «at»⟩) (hostText ▸ atEnd.next) enough
        (by rw [scheme]; rfl) stores
      cases client with
      | telnet => exact absurd rfl user
      | ssh => exact host
      | sftp => exact host
    · have other : tail.bytes last ≠ 64 := mt ends.mp «at»
      rw [if_pos (by simp [other])]
      refine Comes.of_unnamed (fun named => «at» ((named_iff user _).mp named).2) rfl ⟨?_, ?_⟩
      · intro offset member
        cases member
      · intro offset member
        exact stores offset (List.mem_append_left _ member)
  · obtain ⟨last, copied⟩ := @copyUntil_refused tail _ fuel start stops 63 atName (by omega)
      (show (0 : UInt8) < 63 by decide) (by
        rw [inName, bound]
        exact (Nat.le_of_not_lt fits).trans (Nat.le_add_left _ _))
    rw [inName] at copied
    rw [copied, Option.bind_some]
    refine Comes.of_unnamed (fun named => fits ((named_iff user _).mp named).1) rfl ⟨?_, ?_⟩
    · intro offset member
      cases member
    · simp only [start, Copy.puts_setY]
      rw [fresh_stores, List.length_take]
      exact (Nat.min_le_left _ _).trans (show 63 - 0 ≤ 64 by decide)

/-- The builder of TELNET. -/
theorem buildTelnetUrl_comes (enough : 256 ≤ fuel) :
    Comes .telnet tail.text url (buildTelnetUrl tail.bytes fuel url username) := by
  have short := tail.text_length
  obtain ⟨y, skipped, atHost⟩ := @skipSpaces_at tail 0 _ fuel tail.at_start (by omega)
  let copied : Copy := { (fresh url).puts telnetPrefix with y }
  rw [buildTelnetUrl]
  dsimp only
  rw [skipped, Option.bind_some]
  change Comes .telnet tail.text url
    (if tail.bytes y = 13 || tail.bytes y = 0 then some ⟨false, copied, fresh username⟩
    else hostAndPort tail.bytes fuel (fun byte => byte = 32 || byte = 13 || byte = 0) 190 [] copied
      (fresh username))
  have named : Client.Named .telnet tail.text ↔ ¬ (tail.bytes y = 13 || tail.bytes y = 0) = true := by
    simp only [Client.Named]
    cases found : afterSpaces tail.text with
    | nil =>
      rw [found] at atHost
      simp [atHost.cr]
    | cons first rest =>
      rw [found] at atHost
      have member : first ∈ tail.text := by
        refine (List.dropWhile_sublist (· = 32)).subset ?_
        rw [← afterSpaces, found]
        exact List.mem_cons_self
      have plain : first ≠ 13 := by simpa using List.mem_takeWhile_imp member
      simp [atHost.byte, plain]
  have nothing : ∀ offset ∈ (fresh username).stores, offset < 64 := by
    intro offset member
    cases member
  split
  · rename_i over_
    refine Comes.of_unnamed (fun start => named.mp start over_) rfl ⟨?_, nothing⟩
    change ∀ offset ∈ ((fresh url).puts telnetPrefix).stores, offset < 192
    rw [fresh_stores]
    decide
  · rename_i start
    have stops : (fun byte : UInt8 => byte = 32 || byte = 13 || byte = 0) =
        fun byte => byte = 32 || Client.telnet.ends byte := by
      funext byte
      exact Bool.or_assoc _ _ _
    rw [stops]
    exact @Comes.of_host tail .telnet fuel url copied (fresh username) (named.mpr start) atHost enough rfl
      nothing

end Outcomes

section Safety

variable {tail : CommandTail} {client : Client} {fuel : Nat} {url username : Memory UInt8}

theorem build_comes (client : Client) (enough : 256 ≤ fuel) :
    Comes client tail.text url (build tail.bytes fuel client url username) := by
  cases client with
  | ssh => exact buildTarget_comes (by decide) enough
  | telnet => exact buildTelnetUrl_comes enough
  | sftp => exact buildTarget_comes (by decide) enough

/-- Without a space after the host there is no port. -/
theorem Client.port_eq_nil {text : List UInt8} (other : (client.afterHost text).head? ≠ some 32) :
    client.port text = [] := by
  rw [Client.port]
  cases found : client.afterHost text with
  | nil => rfl
  | cons first rest =>
    rw [found] at other
    have stopped : client.inField first = false := by
      have head := List.head?_dropWhile_not client.inField (client.hostText text)
      rw [← Client.afterHost, found] at head
      exact head
    have space : first ≠ 32 := fun same => other (by rw [same]; rfl)
    rw [afterSpaces, List.dropWhile_cons_of_neg (by simpa using space),
      List.takeWhile_cons_of_neg (by simp [stopped])]

theorem Client.Sound.written_eq {text : List UInt8} (sound : client.Sound text) :
    client.scheme ++ client.written text = client.url text ++ [0] := by
  rw [Client.written, Client.url]
  by_cases space : (client.afterHost text).head? = some 32
  · rw [if_pos space, if_neg (sound.port space)]
    simp
  · rw [if_neg space, if_pos (Client.port_eq_nil space)]
    simp

theorem Client.Sound.short {text : List UInt8} (sound : client.Sound text)
    (accepts : client.Accepts text) : (client.url text).length < 192 := by
  have host := accepts.2
  have fixed : client.hostLimit.toNat + client.noPort.length ≤ 190 := by
    cases client <;> decide
  rw [Client.url]
  simp only [List.length_append, List.length_singleton]
  split
  · omega
  · have fits := sound.fits ‹_›
    rw [List.length_cons]
    omega

theorem Client.Sound.no_nul {text : List UInt8} (sound : client.Sound text) : 0 ∉ client.url text := by
  have plain := sound.plain
  have fixed : 0 ∉ client.scheme ∧ 0 ∉ client.noPort := by
    cases client <;> decide
  rw [List.mem_append, not_or] at plain
  rw [Client.url]
  simp only [List.mem_append, List.mem_singleton, not_or]
  refine ⟨⟨⟨fixed.1, plain.1⟩, ?_⟩, by decide⟩
  split
  · exact fixed.2
  · rw [List.mem_cons, not_or]
    exact ⟨by decide, plain.2⟩

theorem safe_of_sound (sound : client.Accepts tail.text → client.Sound tail.text) (enough : 256 ≤ fuel) :
    Safe client tail fuel url username := by
  have comes := @build_comes tail fuel url username client enough
  by_cases accepts : client.Accepts tail.text
  · have good := sound accepts
    have short := good.short accepts
    obtain ⟨done, ran, whole⟩ := comes.accepted accepts
    have size : (client.url tail.text ++ [0]).length = (client.url tail.text).length + 1 :=
      List.length_append
    refine ⟨done, ran, ?_, whole.name, fun _ => ⟨?_, good.no_nul⟩⟩
    · rw [whole.stores, good.written_eq, fresh_stores, size]
      exact short
    · rw [whole.buffer, good.written_eq, ← size]
      exact fresh_read _ _ (by omega)
  · obtain ⟨done, ran, failed, inside⟩ := comes.refused accepts
    exact ⟨done, ran, inside.1, inside.2, fun success => absurd (failed.symm.trans success) (by decide)⟩

/-- A space after the host and no port leaves `:/` where the port would go. -/
theorem bare_differs {text : List UInt8} {buffer : Memory UInt8} (space : (client.afterHost text).head? = some 32)
    (bare : client.port text = [])
    (written : buffer.read 0 (client.scheme ++ client.written text).length =
      client.scheme ++ client.written text) :
    buffer.read 0 ((client.url text).length + 1) ≠ client.url text ++ [0] := by
  intro wanted
  have front : client.scheme ++ client.written text =
      client.scheme ++ client.host text ++ [58, 47] ++ [0] := by
    rw [Client.written, if_pos space, bare]
    simp
  have target : client.url text ++ [0] =
      client.scheme ++ client.host text ++ (client.noPort ++ [47, 0]) := by
    rw [Client.url, if_pos bare]
    simp
  have size : (client.url text).length + 1 = (client.url text ++ [0]).length := by
    rw [List.length_append, List.length_singleton]
  rw [size, target] at wanted
  rw [front] at written
  have first := congrArg (List.take ((client.scheme ++ client.host text).length + 2)) written
  have second := congrArg (List.take ((client.scheme ++ client.host text).length + 2)) wanted
  have inside : (client.scheme ++ client.host text).length + 2 ≤
      (client.scheme ++ client.host text ++ [58, 47] ++ [0]).length ∧
      (client.scheme ++ client.host text).length + 2 ≤
        (client.scheme ++ client.host text ++ (client.noPort ++ [47, 0])).length := by
    simp only [List.length_append, List.length_cons, List.length_nil]
    omega
  rw [Memory.read_take, Nat.min_eq_left inside.1, List.append_assoc, List.take_length_add_append] at first
  rw [Memory.read_take, Nat.min_eq_left inside.2, List.take_length_add_append, first] at second
  have different := List.append_cancel_left second
  cases client <;> exact absurd different (by decide)

theorem sound_of_safe (safe : Safe client tail fuel url username) (enough : 256 ≤ fuel)
    (accepts : client.Accepts tail.text) : client.Sound tail.text := by
  obtain ⟨built, ran, whole⟩ := (@build_comes tail fuel url username client enough).accepted accepts
  obtain ⟨done, same, inside, -, holds⟩ := safe
  rw [ran] at same
  cases same
  obtain ⟨wanted, plain⟩ := holds whole.success
  rw [whole.stores, fresh_stores] at inside
  have inside : (client.scheme ++ client.written tail.text).length ≤ 192 := inside
  have read := fresh_read url _ (inside.trans (by decide))
  rw [← whole.buffer] at read
  refine ⟨fun typed => ?_, fun space bare => bare_differs space bare read wanted, fun member => ?_⟩
  · have space : (client.afterHost tail.text).head? = some 32 := by
      by_contra other
      exact typed (Client.port_eq_nil other)
    rw [Client.written, if_pos space] at inside
    simp only [List.length_append, List.length_cons, List.length_nil] at inside
    omega
  · refine plain ?_
    rw [Client.url]
    rcases List.mem_append.mp member with host | port
    · simp [host]
    · have typed : client.port tail.text ≠ [] := List.ne_nil_of_mem port
      rw [if_neg typed]
      simp [port]

end Safety

/-- Each builder is safe on a tail exactly when it refuses it, or the tail leaves room, has a port
after its space and no NUL. -/
theorem build_safe_iff (client : Client) (tail : CommandTail) {fuel : Nat} (url username : Memory UInt8)
    (enough : 256 ≤ fuel) :
    Safe client tail fuel url username ↔ (client.Accepts tail.text → client.Sound tail.text) :=
  ⟨fun safe => sound_of_safe safe enough, fun sound => safe_of_sound sound enough⟩

theorem getD_ended (text : List UInt8) (short : text.length < 256) :
    ∃ y : UInt8, text.getD y.toNat 13 = 13 := by
  refine ⟨UInt8.ofNat text.length, ?_⟩
  rw [UInt8.toNat_ofNat', List.getD_eq_getElem?_getD, List.getElem?_eq_none (by omega), Option.getD_none]

/-- A tail of less than 256 bytes as it is typed. -/
def CommandTail.typed (text : List UInt8) (short : text.length < 256) : CommandTail :=
  ⟨fun y => text.getD y.toNat 13, getD_ended text short⟩

/-- `u@h` and a port of 183 digits. -/
def longPort : List UInt8 := [117, 64, 104, 32] ++ List.replicate 183 54

theorem longPort_short : longPort.length < 256 := by decide +kernel

theorem longPort_text : (CommandTail.typed longPort longPort_short).text = longPort := by decide +kernel

theorem longPort_accepted : Client.Accepts .ssh longPort := by
  have user : ((afterSpaces longPort).takeWhile (Client.inName .ssh)).length < 63 := by decide +kernel
  have named : ((afterSpaces longPort).dropWhile (Client.inName .ssh)).head? = some 64 := by
    decide +kernel
  have host : (Client.scheme .ssh).length + (Client.host .ssh longPort).length < 180 := by
    decide +kernel
  exact ⟨⟨user, named⟩, host⟩

/-- The NUL of the URL goes to the first byte of what follows the buffer. -/
theorem longPort_not_safe :
    ¬ ∀ (client : Client) (tail : CommandTail) (fuel : Nat) (url username : Memory UInt8), 256 ≤ fuel →
      Safe client tail fuel url username := by
  intro safe
  have accepts := longPort_accepted
  rw [← longPort_text] at accepts
  have sound := sound_of_safe
    (safe .ssh (.typed longPort longPort_short) 256 (fun _ => 0) (fun _ => 0) (Nat.le_refl 256))
    (Nat.le_refl 256) accepts
  rw [longPort_text] at sound
  have typed : Client.port .ssh longPort ≠ [] := by decide +kernel
  have long : ¬ (Client.scheme .ssh).length + (Client.host .ssh longPort).length +
      (Client.port .ssh longPort).length ≤ 189 := by decide +kernel
  exact long (sound.fits typed)

/-- `u@h 22` -/
def shortPort : List UInt8 := [117, 64, 104, 32, 50, 50]

theorem shortPort_safe_iff :
    Client.url .ssh (CommandTail.typed shortPort (by decide)).text =
        [84, 67, 80, 58, 47, 47, 104, 58, 50, 50, 47] ∧
      (Safe .ssh (.typed shortPort (by decide)) 256 (fun _ => 0) (fun _ => 0) ↔
        (Client.Accepts .ssh (CommandTail.typed shortPort (by decide)).text →
          Client.Sound .ssh (CommandTail.typed shortPort (by decide)).text)) :=
  ⟨by decide +kernel, build_safe_iff .ssh _ _ _ (Nat.le_refl 256)⟩

end Pi1MHz.Targets
