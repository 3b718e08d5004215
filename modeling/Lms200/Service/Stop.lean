import Lms200.Service.Station
import Lms200.Device.Streaming

/-!
# The stop at every close

The service closes the device in the watcher, in the operations and in the shutdown, and any of them
may meet a scanner which has been changed. As long as nobody withdraws the permission to write to
it, the stop is written before the transport is closed. The endpoint accepts a withdrawal in
the fault state, in which the transport is still open.
-/

namespace Lms200.Station

open Coop Program

/-- The permission to write is not withdrawn from a scanner which has been changed. -/
def keepsPermission : Input → Station → Bool
  | .consent enable_writes _, s => enable_writes || !s.device.changed || !s.device.settings.physical
  | _, _ => true

section Duties

variable {task : ℕ} {α β : Type}

/-- A coroutine after which what has been changed may still be stopped. -/
def Keeps (task : ℕ) (p : Duty α) : Prop :=
  ∀ s, s.device.Stoppable →
    p.Safe waits task ((stoppable task).zoom part) (fun _ s' => s'.device.Stoppable) s

theorem Keeps.bind {p : Duty α} {f : α → Duty β} (hp : Keeps task p) (hf : ∀ a, Keeps task (f a)) :
    Keeps task (p >>= f) := fun s hs => Safe.seq (hp s hs) (fun a s' hs' => hf a s' hs') fun _ _ hs' => hs'

theorem Keeps.attempt_bind {p : Duty α} {f : Except Error α → Duty β} (hp : Keeps task p)
    (hf : ∀ outcome, Keeps task (f outcome)) : Keeps task (p.attempt >>= f) := fun s hs =>
  Safe.attempt_seq (hp s hs) fun outcome s' hs' => hf outcome s' hs'

theorem Keeps.pure (a : α) : Keeps task (Pure.pure a : Duty α) := fun _ hs => hs

theorem Keeps.get_bind {f : Station → Duty α} (h : ∀ s, Keeps task (f s)) :
    Keeps task ((MonadState.get : Duty Station) >>= f) := fun s hs => Safe.get_bind (h s s hs)

/-- A coroutine of the device. -/
theorem Keeps.device {p : Action α} (h : Lms200.Keeps task (stoppable task) Device.Stoppable p) :
    Keeps task (Duty.device p) := fun s hs => by
  have hpart : part.get s = s.device := rfl
  exact Safe.zoom (hpart ▸ h s.device hs)

/-- A change beside the device. -/
theorem Keeps.change {f : Station → Station} (hf : ∀ s, (f s).device = s.device) :
    Keeps task (modify f : Duty Unit) := by
  intro s hs
  have hmild : Mild s.device (f s).device := by
    rw [hf s]
    exact .silent rfl id id
  exact ⟨hmild.guarantee, hmild.stoppable hs⟩

theorem Keeps.pause (p : Pause) : Keeps task (Duty.pause p) := by
  intro s hs
  have hquiet (s : Station) : ((stoppable task).zoom part).guarantee s s := Mild.guarantee (.silent rfl id id)
  have henter : Station.waits.enter task (.inr p) s = (none, s) := rfl
  refine Safe.request (Reached.intro henter (hquiet s) (by simp) fun _ => ?_)
  have hresume {choice t answer t'} (h : resumePause p choice t = some (answer, t')) :
      answer.isSome ∧ t' = t := by
    unfold resumePause at h
    split at h <;> cases h <;> exact ⟨rfl, rfl⟩
  refine ⟨fun s => s.device.Stoppable, hs, fun t t' ht hrely => (hrely ht).1, ?_, ?_⟩
  · intro choice t t' _ h
    exact absurd (hresume h).1 (by simp)
  · intro choice t answer t' ht h
    obtain ⟨-, rfl⟩ := hresume h
    exact ⟨hquiet _, ht⟩

theorem Keeps.stop_recording : Keeps task Duty.stop_recording := by
  refine Keeps.get_bind fun s => ?_
  split
  · exact Keeps.bind (Keeps.change fun _ => rfl) fun _ => Keeps.pause _
  · exact Keeps.pure _

theorem Keeps.operation (name : Operation) : Keeps task (Duty.operation name) := by
  have hperform : Keeps task (Duty.perform name) := by
    cases name with
    | start => exact Keeps.device (keeps_initializeDevice true)
    | reconnect => exact Keeps.bind Keeps.stop_recording fun _ => Keeps.device keeps_reconnect
    | stop => exact Keeps.bind (Keeps.device keeps_close) fun _ => Keeps.stop_recording
    | probe => exact Keeps.device (peaceful_stoppable task).connect
  refine Keeps.attempt_bind (Keeps.bind (Keeps.pause _) fun _ => Keeps.attempt_bind hperform fun outcome => ?_)
    fun _ => Keeps.change fun _ => rfl
  match outcome with
  | .ok () => exact Keeps.pure _
  | .error e =>
    exact Keeps.bind (Keeps.device keeps_close) fun _ =>
      Keeps.device ((peaceful_stoppable task).transition (by decide))

theorem Keeps.iteration : Keeps task Duty.iteration := by
  have hwatch : Keeps task Duty.watch := by
    refine Keeps.bind (Keeps.pause _) fun _ => Keeps.get_bind fun s => ?_
    split
    · refine Keeps.bind Keeps.stop_recording fun _ => Keeps.bind (Keeps.device keeps_close) fun _ =>
        Keeps.device ((peaceful_stoppable task).modify fun d => ?_)
      exact .silent rfl id nofun
    · exact Keeps.pure _
  refine Keeps.attempt_bind hwatch fun outcome => ?_
  match outcome with
  | .ok () => exact Keeps.pure _
  | .error e => exact Keeps.change fun _ => rfl

theorem Keeps.shutdown : Keeps task Duty.shutdown :=
  Keeps.bind (Keeps.device keeps_close) fun _ => Keeps.stop_recording

end Duties

/-- What happens outside of the coroutines leaves the holder of the lock alone. -/
theorem outside_left {s s' : Station} (h : Outside keepsPermission s s') (hs : s.device.Stoppable) :
    s'.device.Stoppable ∧ ∀ task, s.device.operation_lock = some task → s.device.LeftTo task s'.device := by
  obtain ⟨input, h⟩ := h
  unfold reactIf at h
  split at h
  swap
  · cases h
  next hallowed =>
  have hsession {d : Device} (hd : d.toSession = s.device.toSession) :
      d.Stoppable ∧ ∀ task, s.device.operation_lock = some task → s.device.LeftTo task d :=
    ⟨⟨by rw [hd]; exact hs.replay, by rw [hd]; exact hs.writable, by rw [hd]; exact hs.stops⟩,
      fun task hheld => ⟨by rw [hd]; exact hheld, congrArg Session.changed hd, [], by rw [hd]; simp, by simp⟩⟩
  cases input with
  | launch =>
    cases h
    exact hsession rfl
  | record =>
    simp only [react] at h
    split at h <;> cases h
    exact hsession rfl
  | device input =>
    cases h
    exact hsession (s.device.react_session input)
  | consent enable_writes consent =>
    simp only [react, Station.consent] at h
    split at h
    · cases h
    split at h
    · cases h
    next hconsent =>
    cases h
    refine ⟨⟨hs.replay, fun hchanged => ?_, hs.stops⟩, fun task hheld => ⟨hheld, rfl, [], by simp, by simp⟩⟩
    have hchanged : s.device.changed = true := hchanged
    simp only [keepsPermission, hchanged, Bool.not_true, Bool.or_false, Bool.or_eq_true, Bool.not_eq_true'] at hallowed
    simp only [Settings.require_write, Settings.physical] at hallowed ⊢
    rcases hallowed with henabled | hunphysical
    · subst henabled
      split
      · simpa using hconsent
      · rfl
    · rw [if_neg (by simpa using hunphysical)]

/-- The contracts of the tasks fit together. -/
def stopDiscipline : Discipline waits (Outside keepsPermission) spawn where
  inv s := s.device.Stoppable
  contract task := (stoppable task).zoom part
  ended _ _ _ := True
  guarantee_inv _ _ _ h hs := (h hs).1
  guarantee_rely _ other _ _ hne hs h := fun _ => ⟨(h hs).1, (h hs).2 other hne⟩
  env_inv _ _ h hs := (outside_left h hs).1
  env_rely task _ _ hs h := fun _ => ⟨(outside_left h hs).1, (outside_left h hs).2 task⟩
  ended_rely _ _ _ _ _ _ := trivial
  spawn_inv := by
    intro s task job p s' h hs
    unfold spawn at h
    split at h
    all_goals first | split at h <;> cases h | cases h
    all_goals exact hs
  spawn_rely := by
    intro s task job p s' other _ hs h
    have hsame (d : Device) (hd : d.Stoppable) : (stoppable other).rely d d := fun _ =>
      ⟨hd, fun hheld => ⟨hheld, rfl, [], by simp, by simp⟩⟩
    unfold spawn at h
    split at h
    all_goals first | split at h <;> cases h | cases h
    all_goals exact hsame _ hs
  spawn_safe := by
    intro s task job p s' outcome hs _ h
    unfold spawn at h
    split at h
    all_goals first | split at h <;> cases h | cases h
    · exact (Keeps.iteration _ hs).mono fun _ _ _ => trivial
    · exact (Keeps.operation _ { s with busy := true } hs).mono fun _ _ _ => trivial
    · exact (Keeps.shutdown _ hs).mono fun _ _ _ => trivial

/-- Where the permission to write is not withdrawn from a changed scanner, the stop is written before its
transport is closed. -/
theorem stop_written_before_close {settings : Settings} {transport : Transport} (hreplay : transport.replay = none)
    {pool : StationPool} (h : Pool.Reaches waits (Outside keepsPermission) spawn (idle settings transport) pool) :
    StopsFirst pool.shared.device.wire := by
  have hidle : stopDiscipline.Ok (idle settings transport) := by
    refine ⟨⟨hreplay, nofun, fun before after heq => ?_⟩, fun _ => trivial⟩
    simp [idle] at heq
  exact (hidle.run h).1.stops

/-- A scanner on a serial port, which may be written to. -/
def serial : Settings :=
  { Settings.defaults with
    transport := .serial
    read_only := false
    consent := ⟨true, true, true, true, true⟩ }

/-- A start after which the device streams, and a read which fails. -/
def faultScript : List (Move Input Job Choice) :=
  [.outside .launch, .start 1 (.action .start), .turn 1 .done, .turn 1 .done, .outside (.device .begin),
    .turn 1 .done] ++
    [0xB1 :: defaultStatus, 0xBA :: Action.modelSemicolon, 0xF4 :: defaultConfiguration, [0xA0, 0],
      0xF4 :: defaultConfiguration, 0xB1 :: defaultStatus, [0xA0, 0], [0xA0, 0]].flatMap (fun content =>
        [.outside (.device (.read (.data (reply content)))), .turn 1 .done]) ++
    [.outside (.device (.read .failure))]

/-- The watcher closes the device, and the stop is not answered. -/
theorem stop_written_before_close_watched : ∃ pool : StationPool,
    pool.shared.device.wire.getLast? = some (.closing true) ∧ StopsFirst pool.shared.device.wire := by
  have hoverview : ((idle serial {}).play waits spawn (reactIf keepsPermission) (faultScript ++
      [.start 0 .iteration, .turn 0 .done, .turn 0 .done, .outside (.device (.tick 1)),
        .turn 0 (.raised (.timeout "")), .turn 0 .done])).map
          (fun pool : StationPool => pool.shared.device.wire.getLast?) = some (some (.closing true)) := by
    decide +kernel
  obtain ⟨pool, hplayed, hlast⟩ := Option.map_eq_some_iff.mp hoverview
  exact ⟨pool, hlast, stop_written_before_close rfl (reaches_of_played hplayed)⟩

/-- The permission to write is withdrawn in the fault state: the watcher closes the transport of a scanner
whose last telegram was the start. -/
theorem withdrawn_permission_skips_stop : ∃ pool : StationPool,
    Pool.Reaches waits (Outside anyInput) spawn (idle serial {}) pool ∧
      (payloads pool.shared.device.wire).getLast? = some startPayload ∧
      ¬ StopsFirst pool.shared.device.wire := by
  have hoverview : ((idle serial {}).play waits spawn (reactIf anyInput) (faultScript ++
      [.outside (.consent false {}), .start 0 .iteration, .turn 0 .done, .turn 0 .done])).map
        (fun pool : StationPool => ((payloads pool.shared.device.wire).getLast?,
          pool.shared.device.wire.reverse.take 2)) = some (some startPayload, [.closing true, .stopping]) := by
    decide +kernel
  obtain ⟨pool, hplayed, hfields⟩ := Option.map_eq_some_iff.mp hoverview
  obtain ⟨hpayload, hends⟩ := Prod.mk.inj hfields
  refine ⟨pool, reaches_of_played hplayed, hpayload, fun hstops => ?_⟩
  have hwire : pool.shared.device.wire =
      ((pool.shared.device.wire.reverse.drop 2).reverse ++ [.stopping]) ++ [.closing true] := by
    have hsplit := List.take_append_drop 2 pool.shared.device.wire.reverse
    rw [hends] at hsplit
    simpa using congrArg List.reverse hsplit.symm
  exact not_stopWritten_stopping _ (hstops _ [] hwire)

end Lms200.Station
