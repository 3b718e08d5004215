import Lms200.Simulator.Stages

/-!
# The settings of the scanner at the bench

The orders of `initialize`, each of which is written when its setting differs from the one which was
read, and the readback which finds all of them in place.
-/

namespace Lms200

open Coop Program Bench

/-- A healthy scanner does not report itself as defective. -/
theorem Healthy.not_defective {status : StatusByte} (h : Healthy status) : ¬ 3 ≤ status.raw &&& 7 := by
  intro hlarge
  have hdecoded := h.decoded
  unfold StatusByte.decode at hdecoded
  have hlow : ∀ code : UInt8, 3 ≤ code → Severity.ofCode code = none ∨ Severity.ofCode code = some .error ∨
      Severity.ofCode code = some .fatal := by
    intro code hcode
    unfold Severity.ofCode
    have hne : code ≠ 0 ∧ code ≠ 1 ∧ code ≠ 2 := by
      refine ⟨?_, ?_, ?_⟩
      all_goals
        rintro rfl
        revert hcode
        decide
    rw [if_neg hne.1, if_neg hne.2.1, if_neg hne.2.2]
    split
    · exact .inr (.inl rfl)
    · split
      · exact .inr (.inr rfl)
      · exact .inl rfl
  rcases hlow _ hlarge with hnone | herror | hfatal
  · rw [hnone] at hdecoded
    cases hdecoded
  · rw [herror] at hdecoded
    exact h.not_error (congrArg StatusByte.severity (Except.ok.inj hdecoded)).symm
  · rw [hfatal] at hdecoded
    exact h.not_fatal (congrArg StatusByte.severity (Except.ok.inj hdecoded)).symm

/-- The unit of an updated configuration. -/
theorem Configuration.updated_unit (c : Configuration) (unit : DistanceUnit) (indices : Bool) :
    (c.updated unit indices).unit = .ok unit := by
  have hlength : 6 < c.raw.length := by
    have := c.documented
    omega
  unfold Configuration.unit updated
  cases unit <;> simp [hlength]

theorem Configuration.eq_of_raw {c c' : Configuration} (h : c.raw = c'.raw) : c = c' := by
  cases c
  cases c'
  cases h
  rfl

/-- Flags which have been set, or cleared, stay so. -/
theorem updated_flags (indices : Bool) (flags : UInt8) :
    (if indices then (if indices then flags ||| 2 else flags &&& 0xFD) ||| 2
      else (if indices then flags ||| 2 else flags &&& 0xFD) &&& 0xFD) =
        if indices then flags ||| 2 else flags &&& 0xFD := by
  cases indices with
  | false =>
    simp only [Bool.false_eq_true, if_false]
    rw [UInt8.and_assoc]
    rfl
  | true =>
    simp only [if_true]
    rw [UInt8.or_assoc]
    rfl

/-- An updated configuration needs no update. -/
theorem Configuration.updated_updated (c : Configuration) (unit : DistanceUnit) (indices : Bool) :
    (c.updated unit indices).updated unit indices = c.updated unit indices := by
  have hlength : 6 < c.raw.length := by
    have := c.documented
    omega
  have hflags : (c.updated unit indices).raw.getD 4 0 =
      if indices then c.raw.getD 4 0 ||| 2 else c.raw.getD 4 0 &&& 0xFD := by
    simp [updated, show 4 < c.raw.length by omega]
  apply eq_of_raw
  unfold updated at hflags ⊢
  dsimp only at hflags ⊢
  rw [hflags, updated_flags]
  apply List.ext_getElem
  · simp
  · intro i h₁ h₂
    simp only [List.getElem_set]
    split_ifs <;> rfl

section Orders

variable {contour : Contour} {status : StatusByte} {K : Session} {N : Scanner} {unit : DistanceUnit}

/-- A command which was encoded without an exception, and what follows it. -/
theorem carries_ordered {α : Type} {P Q R : Bench → Prop} {value : Except Error Command} {reply : Response}
    {next : Response → Action α} {r : Except Error α}
    (hcommand : Carries contour P (do Action.command (← Action.lift value)) (.ok reply) Q)
    (hnext : Carries contour Q (next reply) r R) :
    Carries contour P (do
      let reply ← Action.command (← Action.lift value)
      next reply) r R := by
  cases value with
  | ok cmd =>
    have hready : Carries contour P (Action.command cmd) (.ok reply) Q := hcommand
    have hboth : Carries contour P (Action.command cmd >>= next) r R := Yields.bind hready hnext
    exact hboth
  | error e =>
    intro b hb
    cases (hcommand b hb).1

/-- The device knows the scanner, and may write to it. -/
structure Known (status : StatusByte) (K : Session) (N : Scanner) : Prop extends Peers status K N where
  writable : K.settings.require_write = .ok ()
  password : K.settings.password = "SICK_LMS"
  rate : N.baud = N.device_baud.baud
  transport : K.transport.baud = N.baud

section Members

variable (h : Known status K N)
include h

/-- A mode without a password. -/
theorem carries_mode {mode : Mode} (hmode : mode ≠ .INSTALLATION) :
    Carries contour (Rests K N) (do Action.command (← Action.lift (operating_mode mode)))
      (.ok (replyOf status [0xA0, 0x00]))
      (Rests { K with changed := true, wire := K.wire ++ [.wrote [0x20, mode.byte]] } { N with mode := mode.byte }) := by
  have hlift : operating_mode mode = .ok (modeCommand mode [mode.byte]) := if_neg hmode
  rw [hlift]
  apply Yields.bind (carries_lift rfl)
  have hregular : (modeCommand mode [mode.byte]).Regular :=
    ⟨by simp [modeCommand, MAX_PAYLOAD], by simp [modeCommand], by norm_num [modeCommand]⟩
  have hanswers : ∀ M : Scanner, M.core = N →
      ∃ o, M.Answers status (modeCommand mode [mode.byte]) o [0x00] ∧ o.after.core = { N with mode := mode.byte } := by
    intro M hM
    subst hM
    exact ⟨_, M.answers_mode h.healthy hmode, rfl⟩
  exact carries_order h.toPeers h.rate hregular rfl hanswers h.writable

/-- Installation mode. -/
theorem carries_installation :
    Carries contour (Rests K N) (do Action.command (← Action.lift (operating_mode .INSTALLATION K.settings.password)))
      (.ok (replyOf status [0xA0, 0x00]))
      (Rests { K with changed := true, wire := K.wire ++ [.wrote (0x20 :: 0x00 :: simulatorPassword)] }
        { N with mode := 0 }) := by
  have hlift : operating_mode .INSTALLATION K.settings.password =
      .ok (modeCommand .INSTALLATION (Mode.INSTALLATION.byte :: asciiBytes "SICK_LMS")) := by
    rw [h.password]
    decide
  rw [hlift]
  apply Yields.bind (carries_lift rfl)
  have hregular : (modeCommand .INSTALLATION (Mode.INSTALLATION.byte :: asciiBytes "SICK_LMS")).Regular :=
    ⟨by decide, by decide, by norm_num [modeCommand]⟩
  have hanswers : ∀ M : Scanner, M.core = N → ∃ o,
      M.Answers status (modeCommand .INSTALLATION (Mode.INSTALLATION.byte :: asciiBytes "SICK_LMS")) o [0x00] ∧
        o.after.core = { N with mode := 0 } := by
    intro M hM
    subst hM
    exact ⟨_, M.answers_installation h.healthy, rfl⟩
  exact carries_order h.toPeers h.rate hregular rfl hanswers h.writable

/-- A rate of the scanner, which its status then shows at that rate. -/
theorem carries_changeBaud (hunit : N.config.unit = .ok unit) (rate : Rate) :
    Carries contour (Rests K N) (Action.changeBaud rate.baud) (.ok ())
      (Rests { K with
          changed := true
          transport.baud := rate.baud
          info := some ({ N with device_baud := rate }.deviceStatus unit)
          wire := K.wire ++ [.wrote [0x20, (BAUD_CODES rate.baud).getD 0], .baud rate.baud, .wrote [0x31]] }
        { N with baud := rate.baud, device_baud := rate }) := by
  obtain ⟨code, hcode, hof, hother⟩ := rate.ofCode_eq
  have hlift : baud_rate rate.baud = .ok (Scanner.rateCommand code) := by
    unfold baud_rate
    rw [hcode]
    rfl
  unfold Action.changeBaud
  rw [hlift, hcode]
  apply Yields.bind (carries_transition .BAUD)
  apply Yields.bind (carries_lift rfl)
  have hregular : (Scanner.rateCommand code).Regular :=
    ⟨by simp [Scanner.rateCommand, MAX_PAYLOAD], by simp [Scanner.rateCommand], by norm_num [Scanner.rateCommand]⟩
  have hanswers : ∀ M : Scanner, M.core = N →
      ∃ o, M.Answers status (Scanner.rateCommand code) o [0x00] ∧ o.after.core = { N with device_baud := rate } := by
    intro M hM
    subst hM
    exact ⟨_, M.answers_rate h.healthy hof hother, rfl⟩
  apply Yields.bind (carries_order h.toPeers h.rate hregular rfl hanswers h.writable)
  have htuned : Carries contour (Rests { K with changed := true, wire := K.wire ++ [.wrote [0x20, code]] }
      { N with device_baud := rate }) (Action.await (.setBaud rate.baud)) (.ok ())
      (Rests { K with
          changed := true
          transport.baud := rate.baud
          wire := K.wire ++ [.wrote [0x20, code]] ++ [.baud rate.baud] }
        { N with baud := rate.baud, device_baud := rate }) := by
    apply Yields.at_once
    intro b hb
    have hidle := hb.toIdle.tuned rate.baud
    have hadapted := hb.adapt (d := { b.1.log (.baud rate.baud) with transport.baud := rate.baud })
      (M := { b.2.toScanner with baud := rate.baud }) rfl rfl rfl rfl rfl
    exact ⟨_, rfl, { hidle with shows := hadapted.shows }⟩
  apply Yields.bind htuned
  have hpeers : Peers status { K with
      changed := true
      transport.baud := rate.baud
      wire := K.wire ++ [.wrote [0x20, code]] ++ [.baud rate.baud] }
      { N with baud := rate.baud, device_baud := rate } := h.toPeers.of_settings rfl rfl h.unit
  apply Yields.bind (carries_status hpeers hunit rfl)
  rw [if_neg (by exact not_not.mpr rfl)]
  apply Yields.done
  intro b hb
  rw [List.append_assoc, List.append_assoc] at hb
  exact hb

/-- The variant, in installation mode. -/
theorem carries_variant {angle resolution : ℕ} (hvalid : validate_geometry angle resolution = .ok ()) (hmode : N.mode = 0) :
    Carries contour (Rests K N) (do Action.command (← Action.lift (variant angle resolution)))
      (.ok (replyOf status (0xBB :: 0x01 :: (toBytesLittle angle ++ toBytesLittle resolution))))
      (Rests { K with
          changed := true
          wire := K.wire ++ [.wrote (0x3B :: (toBytesLittle angle ++ toBytesLittle resolution))] }
        { N with angle, resolution, geometry := hvalid }) := by
  have hlift : variant angle resolution = .ok (Scanner.variantCommand angle resolution) := by
    unfold variant
    rw [hvalid]
    rfl
  rw [hlift]
  apply Yields.bind (carries_lift rfl)
  have hregular : (Scanner.variantCommand angle resolution).Regular :=
    ⟨by simp [Scanner.variantCommand, toBytesLittle, MAX_PAYLOAD], by simp [Scanner.variantCommand],
      by norm_num [Scanner.variantCommand]⟩
  have hanswers : ∀ M : Scanner, M.core = N → ∃ o, M.Answers status (Scanner.variantCommand angle resolution) o
      (0x01 :: (toBytesLittle angle ++ toBytesLittle resolution)) ∧
        o.after.core = { N with angle, resolution, geometry := hvalid } := by
    intro M hM
    subst hM
    exact ⟨_, M.answers_variant h.healthy hvalid hmode, rfl⟩
  exact carries_order h.toPeers h.rate hregular rfl hanswers h.writable

/-- The configuration, in installation mode. -/
theorem carries_write_configuration {config : Configuration} (hunit : ∃ unit, config.unit = .ok unit) (hmode : N.mode = 0) :
    Carries contour (Rests K N) (do Action.command (← Action.lift (write_configuration config.raw)))
      (.ok (replyOf status (0xF7 :: 0x01 :: config.raw)))
      (Rests { K with changed := true, wire := K.wire ++ [.wrote (0x77 :: config.raw)] } { N with config }) := by
  have hlift : write_configuration config.raw = .ok (Scanner.configurationCommand config) :=
    if_neg (not_not.mpr config.documented)
  rw [hlift]
  apply Yields.bind (carries_lift rfl)
  have hregular : (Scanner.configurationCommand config).Regular := by
    refine ⟨?_, by simp [Scanner.configurationCommand], by norm_num [Scanner.configurationCommand]⟩
    have := config.documented
    simp only [Scanner.configurationCommand, List.length_cons, MAX_PAYLOAD]
    omega
  have hanswers : ∀ M : Scanner, M.core = N → ∃ o, M.Answers status (Scanner.configurationCommand config) o
      (0x01 :: config.raw) ∧ o.after.core = { N with config } := by
    intro M hM
    subst hM
    exact ⟨_, M.answers_write_configuration h.healthy hunit hmode, rfl⟩
  exact carries_order h.toPeers h.rate hregular rfl hanswers h.writable

end Members

/-- What is known stays known, as long as the rates agree. -/
theorem Known.next (h : Known status K N) {K' : Session} {N' : Scanner} (hsettings : K'.settings = K.settings)
    (hstatus : N'.status = N.status) (hunit : ∃ unit, N'.config.unit = .ok unit) (hrate : N'.baud = N'.device_baud.baud)
    (htransport : K'.transport.baud = N'.baud) : Known status K' N' :=
  ⟨h.toPeers.of_settings hsettings hstatus hunit, hsettings ▸ h.writable, hsettings ▸ h.password, hrate, htransport⟩

end Orders

section Settings

variable {contour : Contour} {status : StatusByte} {K : Session} {N : Scanner} (h : Known status K N) (c : Action.Changes)
include h

/-- Installation mode is entered, if anything is to be written. -/
theorem carries_enterInstallation (contour : Contour) :
    ∃ mode w, Carries contour (Rests { K with changed := true } N) (Action.enterInstallation c) (.ok ())
        (Rests { K with changed := true, wire := K.wire ++ w } { N with mode }) ∧
      Wire.stopping ∉ w ∧ ((c.configuration || c.geometry) = true → mode = 0) ∧
      ((c.configuration || c.geometry) = false → w = []) := by
  unfold Action.enterInstallation
  cases (c.configuration || c.geometry) with
  | false =>
    refine ⟨N.mode, [], ?_, by simp, by simp, by simp⟩
    rw [List.append_nil]
    exact Yields.done fun b hb => hb
  | true =>
    refine ⟨0, [.wrote (0x20 :: 0x00 :: simulatorPassword)], ?_, by simp, by simp, by simp⟩
    rw [if_pos rfl]
    apply Yields.bind (carries_transition .INSTALLATION)
    apply Yields.get_bind
    · intro b hb
      rw [hb.settings]
    · have hknown : Known status { K with changed := true } N := h.next rfl rfl h.unit h.rate h.transport
      apply carries_ordered (carries_installation hknown)
      exact Yields.done fun b hb => hb

omit h in
theorem Rate.eq_of_baud {rate rate' : Rate} (h : rate.baud = rate'.baud) : rate = rate' := by
  cases rate
  cases rate'
  cases h
  rfl

/-- The rate is changed, if another one is wanted. -/
theorem carries_switchBaud (contour : Contour) {unit : DistanceUnit} (hunit : N.config.unit = .ok unit) {rate : Rate}
    (hwanted : rate.baud = K.settings.target_baud.getD N.device_baud.baud) :
    ∃ info w, Carries contour (Rests { K with changed := true } N) Action.switchBaud (.ok ())
        (Rests { K with changed := true, transport.baud := rate.baud, info, wire := K.wire ++ w }
          { N with baud := rate.baud, device_baud := rate }) ∧
      Wire.stopping ∉ w ∧ (rate = N.device_baud → w = []) := by
  have hread : ∀ b : Bench, b.Rests { K with changed := true } N →
      b.1.settings.target_baud = K.settings.target_baud ∧ b.1.transport.baud = N.device_baud.baud := by
    intro b hb
    rw [hb.settings, hb.transport]
    exact ⟨rfl, h.transport.trans h.rate⟩
  have hskip : rate = N.device_baud → ∃ info w, Carries contour (Rests { K with changed := true } N) (pure ()) (.ok ())
        (Rests { K with changed := true, transport.baud := rate.baud, info, wire := K.wire ++ w }
          { N with baud := rate.baud, device_baud := rate }) ∧
      Wire.stopping ∉ w ∧ (rate = N.device_baud → w = []) := by
    intro hsame
    refine ⟨K.info, [], ?_, by simp, fun _ => rfl⟩
    have hadapter : ({ K.transport with baud := rate.baud } : Transport) = K.transport := by
      rw [hsame, ← h.rate, ← h.transport]
    have hscanner : ({ N with baud := rate.baud, device_baud := rate } : Scanner) = N := by
      rw [hsame, ← h.rate]
    rw [List.append_nil, hadapter, hscanner]
    exact Yields.done fun b hb => hb
  unfold Action.switchBaud
  by_cases hsame : rate = N.device_baud
  · obtain ⟨info, w, hcarries, hrest⟩ := hskip hsame
    refine ⟨info, w, ?_, hrest⟩
    apply Yields.get_bind (g := pure ()) ?_ hcarries
    intro b hb
    obtain ⟨htarget, htransport⟩ := hread b hb
    cases hsome : K.settings.target_baud with
    | none =>
      rw [htarget, hsome]
    | some target =>
      have hequal : target = b.1.transport.baud := by
        rw [hsome, Option.getD_some] at hwanted
        rw [htransport, ← hwanted, hsame]
      rw [htarget, hsome]
      dsimp only
      rw [if_neg (not_not.mpr hequal)]
  · have htarget : K.settings.target_baud = some rate.baud := by
      cases hsome : K.settings.target_baud with
      | none =>
        rw [hsome, Option.getD_none] at hwanted
        exact absurd (Rate.eq_of_baud hwanted) hsame
      | some target =>
        rw [hsome, Option.getD_some] at hwanted
        rw [hwanted]
    have hknown : Known status { K with changed := true } N := h.next rfl rfl h.unit h.rate h.transport
    refine ⟨_, _, Yields.get_bind (g := Action.changeBaud rate.baud) ?_ (carries_changeBaud hknown hunit rate), by simp,
      fun heq => absurd heq hsame⟩
    intro b hb
    obtain ⟨hread, htransport⟩ := hread b hb
    rw [hread, htarget]
    dsimp only
    rw [if_pos (by rw [htransport]; exact fun heq => hsame (Rate.eq_of_baud heq))]

/-- The variant is written, if the geometry differs. -/
theorem carries_writeVariant (contour : Contour) (hmode : c.geometry = true → N.mode = 0)
    (hgeometry : c.geometry = false → N.angle = K.settings.angle ∧ N.resolution = K.settings.resolution) :
    ∃ w, Carries contour (Rests { K with changed := true } N) (Action.writeVariant c) (.ok ())
        (Rests { K with changed := true, wire := K.wire ++ w }
          { N with angle := K.settings.angle, resolution := K.settings.resolution, geometry := K.settings.geometry }) ∧
      Wire.stopping ∉ w ∧ (c.geometry = false → w = []) := by
  unfold Action.writeVariant
  cases hflag : c.geometry with
  | false =>
    obtain ⟨hangle, hresolution⟩ := hgeometry hflag
    refine ⟨[], ?_, by simp, by simp⟩
    have hsame : ({ N with
        angle := K.settings.angle
        resolution := K.settings.resolution
        geometry := K.settings.geometry } : Scanner) = N := by
      cases N
      cases hangle
      cases hresolution
      rfl
    rw [hsame, List.append_nil]
    exact Yields.done fun b hb => hb
  | true =>
    refine ⟨[.wrote (0x3B :: (toBytesLittle K.settings.angle ++ toBytesLittle K.settings.resolution))], ?_, by simp, by simp⟩
    rw [if_pos rfl]
    apply Yields.get_bind
    · intro b hb
      rw [hb.settings]
    · have hknown : Known status { K with changed := true } N := h.next rfl rfl h.unit h.rate h.transport
      apply carries_ordered (carries_variant hknown K.settings.geometry (hmode hflag))
      exact Yields.done fun b hb => hb

/-- The configuration is written, if it differs. -/
theorem carries_writeConfiguration (contour : Contour) (hunit : ∃ unit, c.desired.unit = .ok unit) (hmode : c.configuration = true → N.mode = 0)
    (hsame : c.configuration = false → N.config = c.desired) :
    ∃ w, Carries contour (Rests { K with changed := true } N) (Action.writeConfiguration c) (.ok ())
        (Rests { K with changed := true, wire := K.wire ++ w } { N with config := c.desired }) ∧
      Wire.stopping ∉ w ∧ (c.configuration = false → w = []) := by
  unfold Action.writeConfiguration
  cases hflag : c.configuration with
  | false =>
    refine ⟨[], ?_, by simp, by simp⟩
    rw [← hsame hflag, List.append_nil]
    exact Yields.done fun b hb => hb
  | true =>
    refine ⟨[.wrote (0x77 :: c.desired.raw)], ?_, by simp, by simp⟩
    rw [if_pos rfl]
    have hknown : Known status { K with changed := true } N := h.next rfl rfl h.unit h.rate h.transport
    apply carries_ordered (carries_write_configuration hknown hunit (hmode hflag))
    exact Yields.done fun b hb => hb

/-- What differs is written. -/
theorem carries_configure (contour : Contour) {unit : DistanceUnit} (hunit : N.config.unit = .ok unit) {rate : Rate}
    (hwanted : rate.baud = K.settings.target_baud.getD N.device_baud.baud)
    (hc : c = Action.changes K.settings (N.deviceStatus unit) N.config) :
    ∃ info mode w, Carries contour (Rests { K with changed := true } N) (Action.configure c) (.ok ())
        (Rests { K with changed := true, transport.baud := rate.baud, info, wire := K.wire ++ w }
          { N with
            baud := rate.baud
            device_baud := rate
            angle := K.settings.angle
            resolution := K.settings.resolution
            geometry := K.settings.geometry
            config := c.desired
            mode }) ∧
      Wire.stopping ∉ w ∧ ((c.configuration || c.geometry) = false → rate = N.device_baud → w = []) := by
  have hdesired : c.desired.unit = .ok K.settings.unit := by
    rw [hc]
    exact N.config.updated_unit _ _
  have hsame : c.configuration = false → N.config = c.desired := by
    rw [hc]
    intro hflag
    exact (Configuration.eq_of_raw (not_not.mp (of_decide_eq_false hflag))).symm
  have hgeometry : c.geometry = false → N.angle = K.settings.angle ∧ N.resolution = K.settings.resolution := by
    rw [hc]
    intro hflag
    exact Prod.mk.inj (not_not.mp (of_decide_eq_false hflag))
  obtain ⟨mode, w₁, hinstalls, hw₁, hmode, hnone₁⟩ := carries_enterInstallation h c contour
  have h₁ : Known status { K with wire := K.wire ++ w₁ } { N with mode } := h.next rfl rfl h.unit h.rate h.transport
  obtain ⟨info, w₂, hswitches, hw₂, hnone₂⟩ := carries_switchBaud h₁ contour hunit hwanted
  have h₂ : Known status { K with transport.baud := rate.baud, info, wire := K.wire ++ w₁ ++ w₂ }
      { N with mode, baud := rate.baud, device_baud := rate } := h.next rfl rfl h.unit rfl rfl
  obtain ⟨w₃, hshapes, hw₃, hnone₃⟩ := carries_writeVariant h₂ c contour
    (fun hflag => hmode (by rw [hflag, Bool.or_true])) hgeometry
  have h₃ : Known status { K with transport.baud := rate.baud, info, wire := K.wire ++ w₁ ++ w₂ ++ w₃ }
      { N with
        mode
        baud := rate.baud
        device_baud := rate
        angle := K.settings.angle
        resolution := K.settings.resolution
        geometry := K.settings.geometry } := h.next rfl rfl h.unit rfl rfl
  obtain ⟨w₄, hwrites, hw₄, hnone₄⟩ := carries_writeConfiguration h₃ c contour ⟨_, hdesired⟩
    (fun hflag => hmode (by rw [hflag, Bool.true_or])) hsame
  refine ⟨info, mode, w₁ ++ w₂ ++ w₃ ++ w₄, ?_, ?_, ?_⟩
  · unfold Action.configure
    apply Yields.bind hinstalls
    apply Yields.bind hswitches
    apply Yields.bind (carries_transition .CONFIGURING)
    apply Yields.bind hshapes
    apply hwrites.mono (fun b hb => hb)
    intro b hb
    simp only [← List.append_assoc]
    exact hb
  · simp [hw₁, hw₂, hw₃, hw₄]
  · intro hflags hrate
    obtain ⟨hconfiguration, hvariant⟩ := Bool.or_eq_false_iff.mp hflags
    rw [hnone₁ hflags, hnone₂ hrate, hnone₃ hvariant, hnone₄ hconfiguration]
    rfl

end Settings

section Preparation

variable {contour : Contour} {status : StatusByte} {K : Session} {N : Scanner} {unit : DistanceUnit}

/-- What was written is read back. -/
theorem carries_verify (h : Known status K N) (hunit : N.config.unit = .ok unit)
    (hgeometry : N.angle = K.settings.angle ∧ N.resolution = K.settings.resolution) :
    Carries contour (Rests K N) (Action.verify N.config) (.ok ())
      (Rests { K with
          configuration := some N.config
          info := some (N.deviceStatus unit)
          wire := K.wire ++ [.wrote [0x74], .wrote [0x31]] } N) := by
  unfold Action.verify
  apply Yields.bind (carries_transition .VERIFYING)
  apply Yields.bind (carries_readConfiguration h.toPeers h.rate)
  have hread : Peers status { K with configuration := some N.config, wire := K.wire ++ [.wrote [0x74]] } N :=
    h.toPeers.of_settings rfl rfl h.unit
  apply Yields.bind (carries_status hread hunit h.rate)
  apply Yields.get_bind
  · intro b hb
    rw [hb.settings, hunit]
  · apply Yields.bind (carries_lift rfl)
    rw [if_neg (by simp [Scanner.deviceStatus, hgeometry.1, hgeometry.2])]
    apply Yields.done
    intro b hb
    rw [List.append_assoc] at hb
    exact hb

/-- The checks before the first order pass. -/
theorem carries_vet (h : Known status K N) (hinfo : K.info = some (N.deviceStatus unit))
    (hconfiguration : K.configuration = some N.config) (hmodel : Action.configurable K.model = true) :
    Carries contour (Rests K N) Action.vet (.ok ()) (Rests K N) := by
  have hsound : (N.deviceStatus unit).device_error = 0 := by
    have hraw : ¬ 3 ≤ N.status &&& 7 := by
      rw [h.status]
      exact h.healthy.not_defective
    exact if_neg hraw
  unfold Action.vet
  apply Yields.get_bind
  · intro b hb
    rw [hb.info, hinfo]
  apply Yields.bind (Q := Rests K N) (a := N.deviceStatus unit) (Yields.done fun b hb => hb)
  apply Yields.get_bind
  · intro b hb
    rw [hb.configuration, hconfiguration]
  apply Yields.bind (Q := Rests K N) (a := N.config) (Yields.done fun b hb => hb)
  rw [if_neg (not_not.mpr hsound)]
  apply Yields.get_bind (g := pure ())
  · intro b hb
    rw [hb.model, if_neg (not_not.mpr hmodel)]
  · exact Yields.done fun b hb => hb

/-- The scanner with the settings of a client. -/
def Scanner.prepared (N : Scanner) (settings : Settings) (rate : Rate) (start_stream : Bool) : Scanner :=
  { N with
    baud := rate.baud
    device_baud := rate
    angle := settings.angle
    resolution := settings.resolution
    geometry := settings.geometry
    config := N.config.updated settings.unit settings.indices
    mode := if start_stream then 0x24 else 0x25 }

/-- The scanner has the settings of a client already. -/
structure Scanner.Matches (settings : Settings) (N : Scanner) : Prop where
  angle : N.angle = settings.angle
  resolution : N.resolution = settings.resolution
  config : N.config.updated settings.unit settings.indices = N.config

theorem Scanner.prepared_matches (N : Scanner) (settings : Settings) (rate : Rate) (start_stream : Bool) :
    (N.prepared settings rate start_stream).Matches settings :=
  ⟨rfl, rfl, N.config.updated_updated _ _⟩

/-- The log of an initialization behind its connection, with what it writes in the middle. -/
def preparing (start_stream : Bool) (w : List Wire) : List Wire :=
  .wrote stopPayload :: (w ++ ([.wrote [0x74], .wrote [0x31], .wrote stopPayload] ++
    if start_stream then [.wrote startPayload] else []))

theorem preparing_eq (wire w : List Wire) (start_stream : Bool) :
    wire ++ [.wrote stopPayload] ++ w ++ [.wrote [0x74], .wrote [0x31]] ++ [.wrote stopPayload] ++
      (if start_stream then [.wrote startPayload] else []) = wire ++ preparing start_stream w := by
  simp [preparing]

/-- The stream is started. -/
theorem carries_startStream (h : Known status K N) :
    Carries contour (Rests K N) Action.startStream (.ok ())
      (fun b => b.Rests { K with changed := true, wire := K.wire ++ [.wrote startPayload] } { N with mode := 0x24 } ∧
        b.1.state = .STREAMING) := by
  unfold Action.startStream
  apply Yields.bind (carries_transition .STARTING)
  apply carries_ordered (carries_mode h (by simp))
  apply Yields.modify_bind
    (Q := Rests { K with changed := true, wire := K.wire ++ [.wrote startPayload] } { N with mode := 0x24 })
  · exact fun b hb => hb.note rfl rfl rfl rfl rfl
  · apply Yields.change
    exact fun b hb => ⟨hb.note rfl rfl rfl rfl rfl, rfl⟩

/-- The scanner gets the settings of the client. -/
theorem carries_prepare (contour : Contour) (h : Known status K N) (hunit : N.config.unit = .ok unit)
    (hinfo : K.info = some (N.deviceStatus unit)) (hconfiguration : K.configuration = some N.config)
    (hmodel : Action.configurable K.model = true) {rate : Rate}
    (hwanted : rate.baud = K.settings.target_baud.getD N.device_baud.baud) (start_stream : Bool) :
    ∃ info w, Carries contour (Rests K N) (Action.prepare start_stream) (.ok ())
        (fun b => b.Rests { K with
            changed := true
            transport.baud := rate.baud
            info := some info
            configuration := some (N.config.updated K.settings.unit K.settings.indices)
            wire := K.wire ++ preparing start_stream w } (N.prepared K.settings rate start_stream) ∧
          b.1.state = if start_stream then .STREAMING else .CONNECTED) ∧
      Wire.stopping ∉ w ∧ (N.Matches K.settings → rate = N.device_baud → w = []) := by
  let c := Action.changes K.settings (N.deviceStatus unit) N.config
  have h₁ : Known status { K with wire := K.wire ++ [.wrote stopPayload] } { N with mode := 0x25 } :=
    h.next rfl rfl h.unit h.rate h.transport
  obtain ⟨seen, mode, w, hconfigures, hw, hnone⟩ := carries_configure h₁ c contour hunit hwanted rfl
  let M : Scanner := { N with
    baud := rate.baud
    device_baud := rate
    angle := K.settings.angle
    resolution := K.settings.resolution
    geometry := K.settings.geometry
    config := c.desired
    mode }
  have hdesired : M.config.unit = .ok K.settings.unit := N.config.updated_unit _ _
  have h₂ : Known status { K with
      changed := true
      transport.baud := rate.baud
      info := seen
      wire := K.wire ++ [.wrote stopPayload] ++ w } M := h.next rfl rfl ⟨_, hdesired⟩ rfl rfl
  have hverifies : Carries contour _ _ _ _ := carries_verify h₂ hdesired ⟨rfl, rfl⟩
  have h₃ : Known status { K with
      changed := true
      transport.baud := rate.baud
      info := some (M.deviceStatus K.settings.unit)
      configuration := some M.config
      wire := K.wire ++ [.wrote stopPayload] ++ w ++ [.wrote [0x74], .wrote [0x31]] } M :=
    h.next rfl rfl ⟨_, hdesired⟩ rfl rfl
  have h₄ : Known status { K with
      changed := true
      transport.baud := rate.baud
      info := some (M.deviceStatus K.settings.unit)
      configuration := some M.config
      wire := K.wire ++ [.wrote stopPayload] ++ w ++ [.wrote [0x74], .wrote [0x31]] ++ [.wrote stopPayload] }
      { M with mode := 0x25 } := h.next rfl rfl ⟨_, hdesired⟩ rfl rfl
  refine ⟨M.deviceStatus K.settings.unit, w, ?_, hw, ?_⟩
  · unfold Action.prepare
    apply Yields.bind (carries_vet h hinfo hconfiguration hmodel)
    apply carries_ordered (carries_mode h (by simp))
    have hread : ∀ b : Bench, b.Rests { K with changed := true, wire := K.wire ++ [.wrote [0x20, Mode.ON_REQUEST.byte]] }
        { N with mode := Mode.ON_REQUEST.byte } → b.1.info = some (N.deviceStatus unit) ∧
          b.1.configuration = some N.config ∧ b.1.settings = K.settings := fun b hb =>
      ⟨hb.info.trans hinfo, hb.configuration.trans hconfiguration, hb.settings⟩
    apply Yields.get_bind
    · intro b hb
      rw [(hread b hb).1]
    apply Yields.bind (Yields.done fun b hb => hb)
    apply Yields.get_bind
    · intro b hb
      rw [(hread b hb).2.1]
    apply Yields.bind (Yields.done fun b hb => hb)
    apply Yields.get_bind
    · intro b hb
      rw [(hread b hb).2.2]
    apply Yields.bind hconfigures
    apply Yields.bind hverifies
    apply carries_ordered (carries_mode h₃ (by simp))
    cases start_stream with
    | true =>
      rw [if_pos rfl]
      apply (carries_startStream h₄).mono (fun b hb => hb)
      intro b hb
      rw [← preparing_eq]
      exact hb
    | false =>
      apply Yields.change
      intro b hb
      rw [← preparing_eq, if_neg Bool.false_ne_true, List.append_nil]
      exact ⟨hb.note rfl rfl rfl rfl rfl, rfl⟩
  · intro hmatches hrate
    apply hnone _ hrate
    have hflags : c.configuration = false ∧ c.geometry = false := by
      constructor
      · exact decide_eq_false (not_not.mpr (congrArg Configuration.raw hmatches.config))
      · apply decide_eq_false
        apply not_not.mpr
        exact Prod.ext hmatches.angle hmatches.resolution
    rw [hflags.1, hflags.2]
    rfl

end Preparation

end Lms200
