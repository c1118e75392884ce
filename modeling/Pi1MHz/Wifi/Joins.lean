import Pi1MHz.Wifi.Control

/-! What a rejected join leaves behind. The credentials are read into the backend's own security
mode before they are checked, and the network is stored before its profile is saved. -/
namespace Pi1MHz.ElkWifi
open FtpService (ascii)

/-- The stored network and the link are the same. -/
structure Kept (before after : Wifi) : Prop where
  ssid : after.ssid = before.ssid
  password : after.password = before.password
  security : after.security = before.security
  enabled : after.enabled = before.enabled
  connecting : after.connecting = before.connecting
  associated : after.associated = before.associated
  hasAddress : after.hasAddress = before.hasAddress

theorem Kept.refl (w : Wifi) : Kept w w := ⟨rfl, rfl, rfl, rfl, rfl, rfl, rfl⟩

/-- A join whose lengths are in order names the mode that is stored, and if its credentials are in
order too, the network that is stored. -/
def NamesStored (w : Wifi) (c : Control) : Prop :=
  c.command 1 = 1 → joinFits c = true →
    (wifiParseCredentials (joinInput c)).1 = w.security ∧
    (wifiCredentialsValid (joinSsid c) (wifiParseCredentials (joinInput c)).2
        (wifiParseCredentials (joinInput c)).1 = true →
      joinSsid c = w.ssid ∧ (wifiParseCredentials (joinInput c)).2 = w.password)

section Rejected
variable {w : Wifi} {c : Control}

theorem wifiUpdate_identity (now : UInt64) :
    (wifiUpdate now w).ssid = w.ssid ∧ (wifiUpdate now w).password = w.password ∧
      (wifiUpdate now w).security = w.security := by
  simp only [wifiUpdate]
  split
  · exact ⟨rfl, rfl, rfl⟩
  · split <;> split <;> exact ⟨rfl, rfl, rfl⟩

theorem namesStored_update (now : UInt64) : NamesStored (wifiUpdate now w) c ↔ NamesStored w c := by
  obtain ⟨ssid, password, security⟩ := @wifiUpdate_identity w now
  rw [NamesStored, ssid, password, security, NamesStored]

/-- Rewriting the identity of the network keeps it when nothing new is written. -/
theorem kept_identity (ssid password : List UInt8) (security : Security) :
    Kept w { w with ssid, password, security } ↔
      security = w.security ∧ ssid = w.ssid ∧ password = w.password :=
  ⟨fun kept => ⟨kept.security, kept.ssid, kept.password⟩,
    fun ⟨security, ssid, password⟩ => ⟨ssid, password, security, rfl, rfl, rfl, rfl⟩⟩

theorem wifiJoin_kept (operation : c.command 1 = 1) (rejected : (wifiJoin c w).code ≠ .ok) :
    Kept w (wifiJoin c w).wifi ↔ NamesStored w c := by
  rcases @wifiJoin_steps w c with ⟨unfit, stopped⟩ | ⟨fits, invalid, stopped⟩ |
    ⟨fits, valid, -, stopped⟩ | ⟨-, joined, -⟩
  · have kept : Kept w (wifiJoin c w).wifi := by
      rw [stopped]
      exact .refl w
    have names : NamesStored w c := by
      intro _ fits
      rw [unfit] at fits
      cases fits
    exact iff_of_true kept names
  · have same : (wifiJoin c w).wifi =
        { w with security := (wifiParseCredentials (joinInput c)).1 } := congrArg Outcome.wifi stopped
    rw [same, kept_identity w.ssid w.password]
    simp [NamesStored, operation, fits, invalid]
  · have same : (wifiJoin c w).wifi = { w with
        security := (wifiParseCredentials (joinInput c)).1
        ssid := joinSsid c, password := (wifiParseCredentials (joinInput c)).2 } :=
      congrArg Outcome.wifi stopped
    rw [same, kept_identity]
    simp [NamesStored, operation, fits, valid]
  · exact absurd joined rejected

/-- The other operations of a join are answered, or refused with nothing done. -/
theorem elkwifiJoin_other (operation : c.command 1 ≠ 1) :
    (elkwifiJoin c w).code = .ok ∨ elkwifiJoin c w = refuse c w .param := by
  simp only [elkwifiJoin]
  split
  · exact .inl rfl
  split
  · exact .inl rfl
  exact .inr rfl

/-- A rejected join keeps what time alone would have kept exactly when it brings nothing new that
it gets as far as storing. -/
theorem rejected_join_kept (w : Wifi) (c : Control) (join : c.command 0 = elkwifiCmdJoin)
    (rejected : (doElkwifiControl w c).code = .param ∨ (doElkwifiControl w c).code = .io) :
    Kept (wifiUpdate c.now w) (doElkwifiControl w c).wifi ↔ NamesStored w c := by
  have refused : (doElkwifiControl w c).code ≠ .ok := by
    rcases rejected with code | code <;> rw [code] <;> decide
  rw [doElkwifiControl_join join] at refused ⊢
  rw [← namesStored_update c.now]
  by_cases operation : c.command 1 = 1
  case pos =>
    rw [elkwifiJoin_one operation] at refused ⊢
    exact wifiJoin_kept operation refused
  case neg =>
    have kept : Kept (wifiUpdate c.now w) (elkwifiJoin c (wifiUpdate c.now w)).wifi := by
      rcases @elkwifiJoin_other (wifiUpdate c.now w) c operation with answered | stopped
      · exact absurd answered refused
      · rw [stopped]
        exact .refl _
    exact iff_of_true kept fun one => absurd one operation

/-- A backend that has joined a network before. -/
def homeWifi : Wifi :=
  { ssid := ascii "home", password := ascii "password", security := .auto, profilePath := false
    present := true, enabled := true, associated := true, hasAddress := true, connecting := false
    associateAtMs := 0, dhcpAtMs := 0, associateDelayMs := 0, dhcpDelayMs := 0, scanFields := 127 }

/-- A join with these credentials. -/
def joinWith (ssid input : List UInt8) : Control where
  command := Memory.write (fun _ => 0) 0 (elkwifiCmdJoin :: 1 :: ssid ++ 0 :: input)
  now := 1000
  later := 1000
  fileOk := true

theorem short_password_kept :
    Kept (wifiUpdate 1000 homeWifi) (doElkwifiControl homeWifi (joinWith (ascii "net") (ascii "short"))).wifi :=
  (rejected_join_kept homeWifi (joinWith (ascii "net") (ascii "short")) rfl (.inl (by decide +kernel))).mpr
    fun _ _ => ⟨by decide +kernel, fun valid => absurd valid (by decide +kernel)⟩

/-- A key of three characters is refused, and the stored network has become a WEP one. -/
theorem rejected_join_changes :
    ¬∀ (w : Wifi) (c : Control), c.command 0 = elkwifiCmdJoin →
      ((doElkwifiControl w c).code = .param ∨ (doElkwifiControl w c).code = .io) →
      Kept (wifiUpdate c.now w) (doElkwifiControl w c).wifi := by
  intro keeps
  have kept := keeps homeWifi (joinWith (ascii "net") (ascii "WEP:abc")) rfl (.inl (by decide +kernel))
  exact absurd kept.security (by decide +kernel)

end Rejected
end Pi1MHz.ElkWifi
