import Lms200.Device.Solo
import Lms200.Traffic.Pattern
import Mathlib.Data.List.TakeWhile

/-!
# What an initialization may write

The plan of `initialize` as a pattern of payloads, in the order of the source. Its optional
segments depend on the settings and on what `connect` reads, which the log of the wire shows:
`Seen` is what the replies accepted so far say, up to the first configuration.

`Traced` is what the log may look like at any time: its writes before a close begin the plan, and
a close adds one stop if anything mutating was attempted before it.
-/

namespace Lms200

open Traffic

/-- The payloads of the writes attempted. -/
def payloads (wire : List Wire) : List Bytes :=
  wire.filterMap fun
    | .wrote payload => some payload
    | _ => none

/-- What happened before a close. -/
def beforeClose (wire : List Wire) : List Wire := wire.takeWhile (· ≠ .stopping)

/-- What happened from the start of a close on. -/
def sinceClose (wire : List Wire) : List Wire := wire.dropWhile (· ≠ .stopping)

/-- `20 25` -/
def stopPayload : Bytes := [0x20, 0x25]

/-- `20 24` -/
def startPayload : Bytes := [0x20, 0x24]

/-- Anything but a request for the status, the type or the configuration. -/
def Mutating (payload : Bytes) : Prop := payload ≠ [0x31] ∧ payload ≠ [0x3A] ∧ payload ≠ [0x74]

/-- The kinds of mutating telegrams, besides the stop. -/
inductive Mutation where
  | installation
  | rate
  | variant
  | configuration
  | start
  deriving DecidableEq, Repr

/-- The kind of a mutating telegram. -/
def Mutation.of (payload : Bytes) : Option Mutation :=
  if payload.getD 0 0 = 0x3B then some .variant
  else if payload.getD 0 0 = 0x77 then some .configuration
  else if payload.getD 0 0 ≠ 0x20 ∨ payload.getD 1 0 = 0x25 then none
  else if payload.getD 1 0 = 0x00 then some .installation
  else if payload.getD 1 0 = 0x24 then some .start
  else some .rate

/-- Something mutating was attempted. -/
def Mutated (wire : List Wire) : Prop := ∃ payload ∈ payloads wire, Mutating payload

/-- What `connect` has read. -/
structure Seen where
  adapter : ℕ := 0
  status : Option DeviceStatus := none
  model : Option Bytes := none
  configuration : Option Configuration := none

/-- A reply accepted by `connect`; the last status counts. -/
def Seen.read (s : Seen) (r : Response) : Seen :=
  if r.command = 0xB1 then { s with status := (decode_status r).toOption }
  else if r.command = 0xBA then { s with model := asciiStrip r.data }
  else if r.command = 0xF4 then { s with configuration := (Configuration.ofRaw r.data).toOption }
  else s

/-- One more event; once the configuration is read nothing changes. -/
def Seen.note (s : Seen) (event : Wire) : Seen :=
  if s.configuration.isSome then s
  else match event with
    | .opened baud => { s with adapter := baud }
    | .baud rate => { s with adapter := rate }
    | .accepted r => s.read r
    | _ => s

/-- What the log says that `connect` has read. -/
def seen (wire : List Wire) : Seen := wire.foldl Seen.note {}

/-- The last reply of a kind. -/
def lastReply (code : UInt8) (wire : List Wire) : Option Response :=
  (wire.filterMap fun
    | .accepted r => if r.command = code then some r else none
    | _ => none).getLast?

/-- A request which may be repeated after a failure. -/
def query (payload : Bytes) : Segment Bytes := ⟨payload, 1, 3⟩

/-- A command which is attempted once. -/
def once (payload : Bytes) : Segment Bytes := ⟨payload, 1, 1⟩

/-- The settings of an initialization, and what it reads. -/
structure Plan where
  settings : Settings
  start_stream : Bool
  tried : ℕ
  adapter : ℕ
  status : DeviceStatus
  configuration : Configuration

namespace Plan

/-- What the plan changes. -/
def changes (p : Plan) : Action.Changes := Action.changes p.settings p.status p.configuration

/-- One status dialogue for each rate tried, the type and the configuration. -/
def detecting (p : Plan) : List (Segment Bytes) :=
  List.replicate p.tried (query [0x31]) ++ [query [0x3A], query [0x74]]

/-- Installation mode, if anything is to be written. -/
def installing (p : Plan) : List (Segment Bytes) :=
  if p.changes.configuration || p.changes.geometry then
    [once (0x20 :: 0x00 :: asciiBytes p.settings.password)]
  else []

/-- The change of the rate, if another one than the adapter's is wanted. -/
def rebauding (p : Plan) : List (Segment Bytes) :=
  match p.settings.target_baud with
  | some target =>
    if target ≠ p.adapter then [once [0x20, (BAUD_CODES target).getD 0], query [0x31]] else []
  | none => []

/-- The variant, if the geometry differs. -/
def reshaping (p : Plan) : List (Segment Bytes) :=
  if p.changes.geometry then
    [once (0x3B :: (toBytesLittle p.settings.angle ++ toBytesLittle p.settings.resolution))]
  else []

/-- The configuration, if it differs. -/
def rewriting (p : Plan) : List (Segment Bytes) :=
  if p.changes.configuration then [once (0x77 :: p.changes.desired.raw)] else []

/-- The start of the stream, if it is wanted. -/
def starting (p : Plan) : List (Segment Bytes) :=
  if p.start_stream then [once startPayload] else []

/-- All that follows the requests of `connect`. -/
def writing (p : Plan) : List (Segment Bytes) :=
  once stopPayload :: (p.installing ++ (p.rebauding ++ (p.reshaping ++ (p.rewriting ++
    (query [0x74] :: query [0x31] :: once stopPayload :: p.starting)))))

/-- The whole plan. -/
def pattern (p : Plan) : List (Segment Bytes) := p.detecting ++ p.writing

/-- The plan belongs to a call: its settings, and a rate tried from among those there are. -/
structure For (d : Device) (start_stream : Bool) (p : Plan) : Prop where
  settings : p.settings = d.settings
  start_stream : p.start_stream = start_stream
  tried_pos : 0 < p.tried
  tried_le : p.tried ≤ (Action.rates d).length

/-- What the plan says was read has been read, and passes the checks. -/
structure Read (p : Plan) (s : Seen) : Prop where
  adapter : s.adapter = p.adapter
  status : s.status = some p.status
  configuration : s.configuration = some p.configuration
  configurable : Action.configurable s.model = true
  device_error : p.status.device_error = 0

/-- The last configuration read equals the desired one, and the last status agrees. -/
structure Verified (p : Plan) (wire : List Wire) : Prop where
  configuration : ∃ r, lastReply 0xF4 wire = some r ∧ r.data = p.changes.desired.raw
  status : ∃ r info, lastReply 0xB1 wire = some r ∧ decode_status r = .ok info ∧
    info.angle = p.settings.angle ∧ info.resolution = p.settings.resolution ∧
    p.changes.desired.unit = .ok info.unit ∧ info.measuring_mode = p.changes.desired.mode

end Plan

/-- What the log may look like at any time during the call. -/
def Traced (d : Device) (start_stream : Bool) (wire : List Wire) : Prop :=
  (∃ p : Plan, p.For d start_stream ∧ Begins p.pattern (payloads (beforeClose wire)) ∧
    (Mutated (beforeClose wire) → p.Read (seen (beforeClose wire))) ∧
    (startPayload ∈ payloads (beforeClose wire) → p.Verified (beforeClose wire))) ∧
  (payloads (sinceClose wire) = [] ∨
    payloads (sinceClose wire) = [stopPayload] ∧ Mutated (beforeClose wire))

/-- What the log looks like when the call has succeeded: the whole plan, and no close. -/
def Completed (d : Device) (start_stream : Bool) (wire : List Wire) : Prop :=
  Wire.stopping ∉ wire ∧ ∃ p : Plan, p.For d start_stream ∧ Fits p.pattern (payloads wire) ∧
    p.Read (seen wire) ∧ p.Verified wire

/-- What the log looks like when the call has failed: one stop was added exactly if anything
mutating had been attempted. -/
def Abandoned (d : Device) (start_stream : Bool) (wire : List Wire) : Prop :=
  Traced d start_stream wire ∧
    (payloads (sinceClose wire) = [stopPayload] ↔ Mutated (beforeClose wire))

section Logs

variable (wire : List Wire)

@[simp] theorem payloads_append (wire wire' : List Wire) :
    payloads (wire ++ wire') = payloads wire ++ payloads wire' := List.filterMap_append

@[simp] theorem payloads_wrote (n : ℕ) (payload : Bytes) :
    payloads (List.replicate n (.wrote payload)) = List.replicate n payload := by
  induction n with
  | zero => rfl
  | succ n ih => rw [List.replicate_succ, List.replicate_succ, ← ih]; rfl

/-- What is read depends on the log event by event. -/
theorem seen_append (wire' : List Wire) : seen (wire ++ wire') = wire'.foldl Seen.note (seen wire) :=
  List.foldl_append

@[simp] theorem seen_wrote (n : ℕ) (payload : Bytes) :
    seen (wire ++ List.replicate n (.wrote payload)) = seen wire := by
  have hkeep : ∀ s : Seen, s.note (.wrote payload) = s := fun s => by simp [Seen.note]
  rw [seen_append]
  induction n with
  | zero => rfl
  | succ n ih => rw [List.replicate_succ, List.foldl_cons, hkeep, ih]

/-- Once the configuration is read, nothing changes what was read. -/
theorem seen_frozen (h : (seen wire).configuration.isSome = true) (wire' : List Wire) :
    seen (wire ++ wire') = seen wire := by
  rw [seen_append]
  have hkeep : ∀ event, (seen wire).note event = seen wire := fun event => if_pos h
  induction wire' with
  | nil => rfl
  | cons event rest ih => rw [List.foldl_cons, hkeep, ih]

theorem lastReply_wrote (code : UInt8) (n : ℕ) (payload : Bytes) :
    lastReply code (wire ++ List.replicate n (.wrote payload)) = lastReply code wire := by
  have hnil : (List.replicate n (Wire.wrote payload)).filterMap (fun
      | .accepted r => if r.command = code then some r else none
      | _ => none) = [] := by
    simp
  simp [lastReply, List.filterMap_append, hnil]

theorem lastReply_accepted_of_ne {code : UInt8} {r : Response} (h : r.command ≠ code) :
    lastReply code (wire ++ [.accepted r]) = lastReply code wire := by
  simp [lastReply, List.filterMap_append, h]

theorem lastReply_accepted {code : UInt8} {r : Response} (h : r.command = code) :
    lastReply code (wire ++ [.accepted r]) = some r := by
  simp [lastReply, List.filterMap_append, h]

variable {wire}

/-- Without a close everything is before it. -/
theorem beforeClose_of_notMem (h : Wire.stopping ∉ wire) : beforeClose wire = wire := by
  refine List.takeWhile_eq_self_iff.mpr fun event hevent => ?_
  simpa using fun heq : event = .stopping => h (heq ▸ hevent)

theorem sinceClose_of_notMem (h : Wire.stopping ∉ wire) : sinceClose wire = [] := by
  refine List.dropWhile_eq_nil_iff.mpr fun event hevent => ?_
  simpa using fun heq : event = .stopping => h (heq ▸ hevent)

theorem beforeClose_append_stopping (h : Wire.stopping ∉ wire) (rest : List Wire) :
    beforeClose (wire ++ .stopping :: rest) = wire := by
  have hself : wire.takeWhile (· ≠ .stopping) = wire := beforeClose_of_notMem h
  rw [beforeClose, List.takeWhile_append, hself]
  simp

theorem sinceClose_append_stopping (h : Wire.stopping ∉ wire) (rest : List Wire) :
    sinceClose (wire ++ .stopping :: rest) = .stopping :: rest := by
  have hnil : wire.dropWhile (· ≠ .stopping) = [] := sinceClose_of_notMem h
  rw [sinceClose, List.dropWhile_append, hnil]
  simp

/-- The writes of a log are those before a close and those since. -/
theorem payloads_split (wire : List Wire) :
    payloads wire = payloads (beforeClose wire) ++ payloads (sinceClose wire) := by
  rw [← payloads_append, beforeClose, sinceClose, List.takeWhile_append_dropWhile]

end Logs

namespace Plan

theorem sound_query (payload : Bytes) : (query payload).Sound :=
  (by decide : 1 ≤ 3)

theorem sound_once (payload : Bytes) : (once payload).Sound := le_rfl

/-- Optional segments are sound when they are. -/
theorem sound_optional {c : Prop} [Decidable c] {segments : List (Segment Bytes)}
    (h : ∀ segment ∈ segments, segment.Sound) :
    ∀ segment ∈ if c then segments else [], segment.Sound := by
  split
  · exact h
  · exact List.forall_mem_nil _

/-- The plan can be completed from everywhere. -/
theorem sound (p : Plan) : ∀ segment ∈ p.pattern, segment.Sound := by
  have honce : ∀ payload, ∀ segment ∈ [once payload], segment.Sound := fun payload =>
    List.forall_mem_singleton.mpr (sound_once payload)
  have hrebauding : ∀ segment ∈ p.rebauding, segment.Sound := by
    unfold rebauding
    split
    · exact sound_optional (List.forall_mem_cons.mpr
        ⟨sound_once _, List.forall_mem_singleton.mpr (sound_query _)⟩)
    · exact List.forall_mem_nil _
  simp only [pattern, detecting, writing, List.forall_mem_append, List.forall_mem_cons]
  refine ⟨⟨fun segment hmem => ?_, sound_query _, sound_query _, List.forall_mem_nil _⟩,
    sound_once _, sound_optional (honce _), hrebauding, sound_optional (honce _),
    sound_optional (honce _), sound_query _, sound_query _, sound_once _, sound_optional (honce _)⟩
  rw [List.eq_of_mem_replicate hmem]
  exact sound_query _

section Once

variable (p : Plan) (kind : Mutation)

theorem allowance_installing :
    allowance p.installing (Mutation.of · = some kind) ≤ if kind = .installation then 1 else 0 := by
  unfold installing
  split <;> simp [once, Mutation.of, eq_comm]

theorem allowance_rebauding :
    allowance p.rebauding (Mutation.of · = some kind) ≤ if kind = .rate then 1 else 0 := by
  unfold rebauding
  split
  · next target htarget =>
    obtain ⟨code, hcode⟩ := Option.isSome_iff_exists.mp
      (p.settings.target_supported target (by rw [htarget]; rfl))
    have hcodes : code ≠ 0x00 ∧ code ≠ 0x24 ∧ code ≠ 0x25 := by
      unfold BAUD_CODES at hcode
      split_ifs at hcode <;> cases hcode <;> decide
    split <;> simp [once, query, Mutation.of, hcode, hcodes, eq_comm]
  · simp

theorem allowance_reshaping :
    allowance p.reshaping (Mutation.of · = some kind) ≤ if kind = .variant then 1 else 0 := by
  unfold reshaping
  split <;> simp [once, Mutation.of, eq_comm]

theorem allowance_rewriting :
    allowance p.rewriting (Mutation.of · = some kind) ≤ if kind = .configuration then 1 else 0 := by
  unfold rewriting
  split <;> simp [once, Mutation.of, eq_comm]

theorem allowance_starting :
    allowance p.starting (Mutation.of · = some kind) ≤ if kind = .start then 1 else 0 := by
  unfold starting
  split <;> simp [once, startPayload, Mutation.of, eq_comm]

/-- The plan allows every kind of mutating telegram besides the stop once at most. -/
theorem allowance_le_one : allowance p.pattern (Mutation.of · = some kind) ≤ 1 := by
  have hdetecting : allowance p.detecting (Mutation.of · = some kind) = 0 := by
    refine allowance_eq_zero fun segment hmem => ?_
    simp only [detecting, List.mem_append, List.mem_replicate, List.mem_cons, List.not_mem_nil,
      or_false] at hmem
    rcases hmem with ⟨-, rfl⟩ | rfl | rfl <;> simp [query, Mutation.of]
  have hinstalling := p.allowance_installing kind
  have hrebauding := p.allowance_rebauding kind
  have hreshaping := p.allowance_reshaping kind
  have hrewriting := p.allowance_rewriting kind
  have hstarting := p.allowance_starting kind
  have hwriting : allowance p.writing (Mutation.of · = some kind) ≤ 1 := by
    simp only [writing, allowance_append, allowance_cons]
    have hothers : ∀ payload ∈ [stopPayload, [0x74], [0x31]],
        Mutation.of payload ≠ some kind := by
      simp [stopPayload, Mutation.of]
    cases kind <;> simp_all [once, query]
  rw [pattern, allowance_append, hdetecting]
  omega

end Once

end Plan

end Lms200
