import Pi1MHz.Wifi.Joins

/-! The profile that a join saves, as the next start loads it. The file is three lines behind a
header and nothing in them is escaped. -/
namespace Pi1MHz.ElkWifi
open FtpService (ascii lower)

/-- What `wifi_profile_save` writes. -/
def profileText (w : Wifi) : List UInt8 :=
  ascii "ELKWIFI1\n" ++ w.security.text ++ ascii "\n" ++ w.ssid ++ ascii "\n" ++ w.password ++ ascii "\n"

/-- No byte ends a line or a string. -/
def OneLine (text : List UInt8) : Prop := ∀ byte ∈ text, byte ≠ 0 ∧ byte ≠ 13 ∧ byte ≠ 10

section Lines
variable {line : List UInt8}

theorem oneLine_iff {text : List UInt8} :
    OneLine text ↔ text.all (fun byte => byte ≠ 0 && byte ≠ 13 && byte ≠ 10) = true := by
  simp [OneLine, and_assoc]

theorem takeWhile_line {ends : UInt8 → Bool} {last : UInt8} (plain : ∀ byte ∈ line, ends byte = true)
    (stop : ends last = false) (rest : List UInt8) :
    (line ++ last :: rest).takeWhile ends = line := by
  rw [List.takeWhile_append_of_pos plain, List.takeWhile_cons_of_neg (by simp [stop]),
    List.append_nil]

theorem fgets_line {size : Nat} (fits : line.length + 1 < size) (plain : 10 ∉ line)
    (rest : List UInt8) : fgets size (line ++ 10 :: rest) = some (line ++ [10], rest) := by
  obtain ⟨room, exactly⟩ : ∃ room, size - 1 - line.length = room + 1 :=
    ⟨size - 1 - line.length - 1, by omega⟩
  have head : (line ++ 10 :: rest).take (size - 1) = line ++ 10 :: rest.take room := by
    rw [List.take_append, List.take_of_length_le (by omega), exactly, List.take_succ_cons]
  have ended : (line ++ 10 :: rest.take room).takeWhile (· ≠ 10) = line :=
    takeWhile_line (fun byte member => by simpa using ne_of_mem_of_not_mem member plain) (by simp) _
  have nonempty : line ++ 10 :: rest ≠ [] := by simp
  have reached : 10 ∈ line ++ 10 :: rest.take room := by simp
  simp only [fgets, nonempty, if_false, head, reached, if_true, ended]
  simp

theorem oneLine_iff_not_mem {text : List UInt8} : OneLine text ↔ 0 ∉ text ∧ 13 ∉ text ∧ 10 ∉ text := by
  constructor
  · intro plain
    exact ⟨fun member => (plain 0 member).1 rfl, fun member => (plain 13 member).2.1 rfl,
      fun member => (plain 10 member).2.2 rfl⟩
  · rintro ⟨nul, back, feed⟩ byte member
    exact ⟨ne_of_mem_of_not_mem member nul, ne_of_mem_of_not_mem member back,
      ne_of_mem_of_not_mem member feed⟩

theorem cutLine_line (plain : OneLine line) : cutLine (line ++ [10]) = line :=
  takeWhile_line (List.all_eq_true.mp (oneLine_iff.mp plain)) (by decide) []

theorem cutLine_oneLine (line : List UInt8) : OneLine (cutLine line) :=
  oneLine_iff.mpr List.all_takeWhile

end Lines

section Credentials

/-- A byte that no mode is spelt with is in the input exactly when it is in the password. -/
theorem mem_wifiParseCredentials {byte : UInt8} (fixed : lower byte = byte) (apart : byte ≠ 58)
    (unnamed : ∀ mode ∈ Security.open :: modes, byte ∉ mode.text.map lower) (input : List UInt8) :
    byte ∈ (wifiParseCredentials input).2 ↔ byte ∈ input := by
  have kept : ∀ {text : List UInt8}, byte ∈ text → byte ∈ text.map lower :=
    fun member => List.mem_map.mpr ⟨byte, member, fixed⟩
  simp only [wifiParseCredentials]
  split
  case isTrue opened =>
    refine iff_of_false List.not_mem_nil fun member => ?_
    have spelt := kept member
    rw [opened] at spelt
    exact unnamed .open List.mem_cons_self spelt
  case isFalse =>
    split
    case h_1 mode named =>
      have listed := List.mem_of_find?_eq_some named
      have spelt := List.find?_some named
      simp only [Bool.and_eq_true, decide_eq_true_eq] at spelt
      obtain ⟨front, colon⟩ := spelt
      obtain ⟨inside, at58⟩ := List.getElem?_eq_some_iff.mp colon
      have parts : input = input.take mode.text.length ++ 58 :: input.drop (mode.text.length + 1) := by
        rw [← at58, ← List.drop_eq_getElem_cons inside, List.take_append_drop]
      have outside : byte ∉ input.take mode.text.length := by
        intro member
        have spelt := kept member
        rw [front] at spelt
        exact unnamed mode (List.mem_cons_of_mem _ listed) spelt
      constructor
      · exact List.mem_of_mem_drop
      · intro member
        rw [parts] at member
        rcases List.mem_append.mp member with before | after
        · exact absurd before outside
        · exact (List.mem_cons.mp after).resolve_left apart
    case h_2 => exact Iff.rfl

end Credentials

section RoundTrip
variable {w : Wifi} {c : Control}

theorem credentials_lengths {ssid password : List UInt8} {security : Security}
    (valid : wifiCredentialsValid ssid password security = true) :
    ssid.length ≤ 32 ∧ password.length ≤ 64 := by
  by_contra long
  have refused : (ssid = [] || 32 < ssid.length || 64 < password.length) = true := by
    simp only [Bool.or_eq_true, decide_eq_true_eq]
    omega
  unfold wifiCredentialsValid at valid
  dsimp only at valid
  rw [if_pos refused] at valid
  cases valid

theorem OneLine.no_feed {text : List UInt8} (plain : OneLine text) : 10 ∉ text :=
  (oneLine_iff_not_mem.mp plain).2.2

theorem security_line (security : Security) :
    OneLine security.text ∧ security.text.length ≤ 4 ∧ securityOf security.text = some security := by
  cases security <;> exact ⟨oneLine_iff.mpr (by decide), by decide, by decide⟩

theorem profileText_eq (w : Wifi) :
    profileText w = ascii "ELKWIFI1" ++ 10 :: (w.security.text ++ 10 :: (w.ssid ++ 10 ::
      (w.password ++ 10 :: []))) := by
  have header : ascii "ELKWIFI1\n" = ascii "ELKWIFI1" ++ [10] := rfl
  have feed : ascii "\n" = [10] := rfl
  simp only [profileText, header, feed, List.append_assoc, List.cons_append, List.nil_append]

/-- Valid credentials of one line each are loaded as they were saved. -/
theorem wifiProfileLoad_profileText (ssid : OneLine w.ssid) (password : OneLine w.password)
    (valid : wifiCredentialsValid w.ssid w.password w.security = true) :
    wifiProfileLoad (some (profileText w)) = some (w.security, w.ssid, w.password) := by
  obtain ⟨ssidShort, passwordShort⟩ := credentials_lengths valid
  obtain ⟨mode, modeShort, named⟩ := security_line w.security
  have header : OneLine (ascii "ELKWIFI1") := oneLine_iff.mpr (by decide)
  have short : (ascii "ELKWIFI1").length + 1 < 16 := by decide
  rw [profileText_eq, wifiProfileLoad]
  simp only [Option.bind_eq_bind, Option.bind_some, fgets_line short header.no_feed,
    fgets_line (show w.security.text.length + 1 < 16 by omega) mode.no_feed,
    fgets_line (show w.ssid.length + 1 < 64 by omega) ssid.no_feed,
    fgets_line (show w.password.length + 1 < 96 by omega) password.no_feed,
    cutLine_line header, cutLine_line mode, cutLine_line ssid, cutLine_line password, named, valid]
  rfl

theorem wifiProfileLoad_oneLine {file : Option (List UInt8)} {security : Security}
    {ssid password : List UInt8}
    (loaded : wifiProfileLoad file = some (security, ssid, password)) :
    OneLine ssid ∧ OneLine password := by
  unfold wifiProfileLoad at loaded
  obtain ⟨text, -, loaded⟩ := Option.bind_eq_some_iff.mp loaded
  obtain ⟨⟨header, afterHeader⟩, -, loaded⟩ := Option.bind_eq_some_iff.mp loaded
  obtain ⟨⟨mode, afterMode⟩, -, loaded⟩ := Option.bind_eq_some_iff.mp loaded
  obtain ⟨⟨ssidLine, afterSsid⟩, -, loaded⟩ := Option.bind_eq_some_iff.mp loaded
  obtain ⟨⟨passwordLine, afterPassword⟩, -, loaded⟩ := Option.bind_eq_some_iff.mp loaded
  obtain ⟨named, -, loaded⟩ := Option.bind_eq_some_iff.mp loaded
  split at loaded
  · cases loaded
  split at loaded
  · cases loaded
  cases loaded
  exact ⟨cutLine_oneLine ssidLine, cutLine_oneLine passwordLine⟩

theorem Joins.identity (joins : Joins w c) :
    (doElkwifiControl w c).wifi.security = (wifiParseCredentials (joinInput c)).1 ∧
      (doElkwifiControl w c).wifi.ssid = joinSsid c ∧
      (doElkwifiControl w c).wifi.password = (wifiParseCredentials (joinInput c)).2 := by
  have accepted := joins.accepted
  rw [← joinAccepted_congr (wifiUpdate_profilePath c.now)] at accepted
  rw [doElkwifiControl_join joins.command, elkwifiJoin_one joins.operation]
  rcases @wifiJoin_steps (wifiUpdate c.now w) c with ⟨unfit, -⟩ | ⟨-, invalid, -⟩ |
    ⟨-, -, unsaved, -⟩ | ⟨-, -, joined⟩
  · simp [joinAccepted, unfit] at accepted
  · simp [joinAccepted, invalid] at accepted
  · simp [joinAccepted, unsaved] at accepted
  · rw [joined]
    exact ⟨rfl, rfl, rfl⟩

theorem string_no_nul (offset size : Nat) : 0 ∉ c.string offset size := by
  intro member
  simpa using List.all_eq_true.mp List.all_takeWhile 0 member

/-- Of the SSID and the credentials nothing ends a line exactly when neither the SSID nor the
password does. -/
theorem join_oneLine_iff :
    (∀ byte ∈ joinSsid c ++ joinInput c, byte ≠ 10 ∧ byte ≠ 13) ↔
      OneLine (joinSsid c) ∧ OneLine (wifiParseCredentials (joinInput c)).2 := by
  have nul := @mem_wifiParseCredentials 0 (by decide) (by decide) (by decide) (joinInput c)
  have feed := @mem_wifiParseCredentials 10 (by decide) (by decide) (by decide) (joinInput c)
  have back := @mem_wifiParseCredentials 13 (by decide) (by decide) (by decide) (joinInput c)
  have ssid : 0 ∉ joinSsid c := string_no_nul 2 ssidSize
  have input : 0 ∉ joinInput c := string_no_nul _ passwordSize
  rw [oneLine_iff_not_mem, oneLine_iff_not_mem, nul, feed, back]
  constructor
  · intro plain
    have absent : ∀ byte, byte = 10 ∨ byte = 13 → byte ∉ joinSsid c ∧ byte ∉ joinInput c := by
      intro byte ends
      rw [← not_or, ← List.mem_append]
      intro member
      exact ends.elim (plain byte member).1 (plain byte member).2
    exact ⟨⟨ssid, (absent 13 (.inr rfl)).1, (absent 10 (.inl rfl)).1⟩,
      input, (absent 13 (.inr rfl)).2, (absent 10 (.inl rfl)).2⟩
  · rintro ⟨⟨-, ssidBack, ssidFeed⟩, -, inputBack, inputFeed⟩ byte member
    rcases List.mem_append.mp member with inSsid | inInput
    · exact ⟨ne_of_mem_of_not_mem inSsid ssidFeed, ne_of_mem_of_not_mem inSsid ssidBack⟩
    · exact ⟨ne_of_mem_of_not_mem inInput inputFeed, ne_of_mem_of_not_mem inInput inputBack⟩

/-- The profile of an accepted join is loaded as it was saved exactly when no byte of its SSID and
credentials is a line feed or a carriage return. -/
theorem saved_profile_loads (w : Wifi) (c : Control) (joins : Joins w c) :
    wifiProfileLoad (some (profileText (doElkwifiControl w c).wifi)) =
        some ((doElkwifiControl w c).wifi.security, (doElkwifiControl w c).wifi.ssid,
          (doElkwifiControl w c).wifi.password) ↔
      ∀ byte ∈ joinSsid c ++ joinInput c, byte ≠ 10 ∧ byte ≠ 13 := by
  obtain ⟨security, ssid, password⟩ := joins.identity
  have valid : wifiCredentialsValid (doElkwifiControl w c).wifi.ssid
      (doElkwifiControl w c).wifi.password (doElkwifiControl w c).wifi.security = true := by
    have accepted := joins.accepted
    rw [joinAccepted, Bool.and_eq_true, Bool.and_eq_true] at accepted
    rw [ssid, password, security]
    exact accepted.1.2
  rw [join_oneLine_iff, ← ssid, ← password]
  exact ⟨wifiProfileLoad_oneLine, fun plain => wifiProfileLoad_profileText plain.1 plain.2 valid⟩

/-- The backend of before, with a profile of its own. -/
def savingWifi : Wifi := { homeWifi with profilePath := true }

theorem plain_profile_loads :
    wifiProfileLoad (some (profileText (doElkwifiControl savingWifi
      (joinWith (ascii "net") (ascii "WEP:abcde"))).wifi)) =
        some (.wep, ascii "net", ascii "abcde") :=
  (saved_profile_loads savingWifi (joinWith (ascii "net") (ascii "WEP:abcde"))
    ⟨by decide +kernel, by decide +kernel, by decide +kernel⟩).mpr (by decide +kernel)

/-- An SSID of two lines is accepted and saved, and its profile is not loaded. -/
theorem broken_profile_lost :
    ¬∀ (w : Wifi) (c : Control), Joins w c →
      wifiProfileLoad (some (profileText (doElkwifiControl w c).wifi)) =
        some ((doElkwifiControl w c).wifi.security, (doElkwifiControl w c).wifi.ssid,
          (doElkwifiControl w c).wifi.password) := by
  intro loads
  have loaded := loads savingWifi (joinWith (ascii "a\nb") (ascii "password"))
    ⟨by decide +kernel, by decide +kernel, by decide +kernel⟩
  exact absurd loaded (by decide +kernel)

end RoundTrip

end Pi1MHz.ElkWifi
