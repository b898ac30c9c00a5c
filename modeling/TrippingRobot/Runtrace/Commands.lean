import TrippingRobot.Runtrace.Device

/-! `cdev_write`: the commands for the device, compared in a buffer on the stack of which a
write fills only as many bytes as it has. -/

namespace TrippingRobot.Runtrace

open TrippingRobot.Data

def einval : CInt := 22

structure LocalBuf where
  bytes : List UInt8
  size : bytes.length = 20

/-- `*local_buf = '\0'` and the copy of at most `sizeof(local_buf)` bytes from the user. -/
def LocalBuf.copied (stale : LocalBuf) (buf : List UInt8) : List UInt8 :=
  let len := min buf.length stale.bytes.length
  buf.take len ++ (stale.bytes.set 0 0).drop len

/-- What the two commands start with. -/
def blockingText : List UInt8 := ascii ['b', 'l', 'o', 'c', 'k', 'i', 'n', 'g', ' ']

def b0 : List UInt8 := blockingText ++ ascii ['0']
def b1 : List UInt8 := blockingText ++ ascii ['1']

structure WriteResult where
  returned : BitVec 64
  device : Device
  warning : Option (List UInt8)

/-- `cdev_write`; `past` is what stands behind `local_buf` on the stack. -/
def cdevWrite (stale : LocalBuf) (past buf : List UInt8) (device : Device) : WriteResult :=
  let localBuf := stale.copied buf
  let count := BitVec.ofNat 64 buf.length
  if strncmp b0.length (untilNul localBuf) b0 = 0 then
    ⟨count, { device with cdevBlockingRead := 0 }, none⟩
  else if strncmp b1.length (untilNul localBuf) b1 = 0 then
    ⟨count, { device with cdevBlockingRead := 1 }, none⟩
  else
    ⟨-einval.signExtend 64, device, some (untilNul (localBuf ++ past))⟩

structure Obeyed (buf : List UInt8) (device : Device) (result : WriteResult) : Prop where
  nonBlocking : b0 <+: buf → result.returned = BitVec.ofNat 64 buf.length ∧
    result.device = { device with cdevBlockingRead := 0 }
  blocking : b1 <+: buf → result.returned = BitVec.ofNat 64 buf.length ∧
    result.device = { device with cdevBlockingRead := 1 }
  unknown : ¬ b0 <+: buf → ¬ b1 <+: buf →
    result.returned = -einval.signExtend 64 ∧ result.device = device

/-- Two writes cannot be told apart by what they return and leave behind. -/
def WriteResult.Same (first second : WriteResult) : Prop :=
  first.returned = second.returned ∧ first.device = second.device

/-- The device commands depend only on the bytes written, and do what these ask for. -/
structure Commanded (buf : List UInt8) (device : Device) : Prop where
  same : ∀ stale other past behind,
    (cdevWrite stale past buf device).Same (cdevWrite other behind buf device)
  obeyed : ∀ stale past, Obeyed buf device (cdevWrite stale past buf device)

/-- A buffer starts with a command of ten bytes as far as the bytes written decide it. -/
theorem copied_starts_iff (stale : LocalBuf) {buf : List UInt8} (digit : UInt8)
    (decided : buf = [] ∨ ¬ buf <+: blockingText) :
    blockingText ++ [digit] <+: stale.copied buf ↔ blockingText ++ [digit] <+: buf := by
  have size := stale.size
  have ten : (blockingText ++ [digit]).length = 10 := rfl
  constructor
  · intro starts
    have shown : buf.take (min buf.length stale.bytes.length) <+: stale.copied buf :=
      List.prefix_append _ _
    rcases List.prefix_or_prefix_of_prefix starts shown with inside | short
    · exact inside.trans (List.take_prefix _ _)
    · have length := short.length_le
      rw [List.length_take, ten] at length
      rw [List.take_of_length_le (by omega)] at short
      rcases List.prefix_concat_iff.mp short with whole | part
      · rw [whole]
      · rcases decided with rfl | apart
        · obtain ⟨rest, first⟩ := starts
          have head : (stale.copied []).head? = some 0 := by
            cases bytes : stale.bytes with
            | nil => simp [bytes] at size
            | cons old others => simp [LocalBuf.copied, bytes]
          rw [← first] at head
          exact absurd (Option.some.inj head) (by decide)
        · exact absurd part apart
  · intro starts
    have length := starts.length_le
    refine List.prefix_append_of_prefix (List.prefix_take_iff.mpr ⟨starts, ?_⟩)
    omega

theorem command_iff (stale : LocalBuf) (buf : List UInt8) {command : List UInt8}
    (clean : 0 ∉ command) :
    strncmp command.length (untilNul (stale.copied buf)) command = 0 ↔
      command <+: stale.copied buf :=
  strncmp_eq_zero clean _

theorem cdevWrite_nonBlocking {stale : LocalBuf} {buf : List UInt8} (device : Device)
    (starts : b0 <+: stale.copied buf) (past : List UInt8) :
    cdevWrite stale past buf device =
      ⟨BitVec.ofNat 64 buf.length, { device with cdevBlockingRead := 0 }, none⟩ :=
  if_pos ((command_iff stale buf (by decide)).mpr starts)

theorem cdevWrite_blocking {stale : LocalBuf} {buf : List UInt8} (device : Device)
    (starts : b1 <+: stale.copied buf) (past : List UInt8) :
    cdevWrite stale past buf device =
      ⟨BitVec.ofNat 64 buf.length, { device with cdevBlockingRead := 1 }, none⟩ := by
  have other : ¬ b0 <+: stale.copied buf := by
    intro both
    have agree := List.prefix_of_prefix_length_le both starts (by decide)
    exact absurd agree (by decide)
  rw [cdevWrite, if_neg (mt (command_iff stale buf (by decide)).mp other),
    if_pos ((command_iff stale buf (by decide)).mpr starts)]

theorem cdevWrite_unknown {stale : LocalBuf} {buf : List UInt8} (device : Device)
    (first : ¬ b0 <+: stale.copied buf) (second : ¬ b1 <+: stale.copied buf)
    (past : List UInt8) :
    cdevWrite stale past buf device =
      ⟨-einval.signExtend 64, device, some (untilNul (stale.copied buf ++ past))⟩ := by
  rw [cdevWrite, if_neg (mt (command_iff stale buf (by decide)).mp first),
    if_neg (mt (command_iff stale buf (by decide)).mp second)]

theorem cdevWrite_obeyed (stale : LocalBuf) (past : List UInt8) {buf : List UInt8}
    (device : Device) (decided : buf = [] ∨ ¬ buf <+: blockingText) :
    Obeyed buf device (cdevWrite stale past buf device) := by
  have zero : b0 <+: stale.copied buf ↔ b0 <+: buf := copied_starts_iff stale 48 decided
  have one : b1 <+: stale.copied buf ↔ b1 <+: buf := copied_starts_iff stale 49 decided
  refine ⟨?_, ?_, ?_⟩
  · intro starts
    rw [cdevWrite_nonBlocking device (zero.mpr starts) past]
    exact ⟨rfl, rfl⟩
  · intro starts
    rw [cdevWrite_blocking device (one.mpr starts) past]
    exact ⟨rfl, rfl⟩
  · intro first second
    rw [cdevWrite_unknown device (mt zero.mp first) (mt one.mp second) past]
    exact ⟨rfl, rfl⟩

theorem Obeyed.same {buf : List UInt8} {device : Device} {first second : WriteResult}
    (one : Obeyed buf device first) (other : Obeyed buf device second) : first.Same second := by
  by_cases zero : b0 <+: buf
  · obtain ⟨returned, left⟩ := one.nonBlocking zero
    obtain ⟨returns, leaves⟩ := other.nonBlocking zero
    exact ⟨returned.trans returns.symm, left.trans leaves.symm⟩
  · by_cases start : b1 <+: buf
    · obtain ⟨returned, left⟩ := one.blocking start
      obtain ⟨returns, leaves⟩ := other.blocking start
      exact ⟨returned.trans returns.symm, left.trans leaves.symm⟩
    · obtain ⟨returned, left⟩ := one.unknown zero start
      obtain ⟨returns, leaves⟩ := other.unknown zero start
      exact ⟨returned.trans returns.symm, left.trans leaves.symm⟩

/-- A stack on which an earlier call left the command. -/
def leftover : LocalBuf := ⟨b0 ++ List.replicate 10 0, by decide⟩

theorem leftover_copied {buf : List UInt8} (part : buf <+: blockingText) (nonempty : buf ≠ []) :
    b0 <+: leftover.copied buf := by
  obtain ⟨rest, text⟩ := part
  have command : b0 = buf ++ (rest ++ ascii ['0']) := by
    rw [← List.append_assoc, text]
    rfl
  have stale : leftover.bytes = buf ++ (rest ++ ascii ['0'] ++ List.replicate 10 0) := by
    rw [← List.append_assoc, ← command]
    rfl
  have length : min buf.length leftover.bytes.length = buf.length := by
    rw [stale, List.length_append]
    omega
  have kept : (leftover.bytes.set 0 0).drop buf.length =
      rest ++ ascii ['0'] ++ List.replicate 10 0 := by
    rw [List.drop_set_of_lt (List.length_pos_iff.mpr nonempty), stale, List.drop_left]
  refine ⟨List.replicate 10 0, ?_⟩
  simp only [LocalBuf.copied, length, List.take_length, kept, command, List.append_assoc]

/-- The commands depend only on the bytes written exactly if these are none, or not the start
of a command that lacks its last byte. -/
theorem commanded_iff (buf : List UInt8) (device : Device) :
    Commanded buf device ↔ buf = [] ∨ ¬ buf <+: blockingText := by
  constructor
  · intro commanded
    by_contra undecided
    obtain ⟨nonempty, part⟩ := not_or.mp undecided
    have short := (not_not.mp part).length_le
    have nine : blockingText.length = 9 := rfl
    have lacking (command : List UInt8) (ten : command.length = 10) : ¬ command <+: buf := by
      intro starts
      have long := starts.length_le
      omega
    have refused := ((commanded.obeyed leftover []).unknown (lacking b0 rfl) (lacking b1 rfl)).1
    rw [cdevWrite_nonBlocking device (leftover_copied (not_not.mp part) nonempty)] at refused
    have values := congrArg BitVec.toNat refused
    have error : (-einval.signExtend 64 : BitVec 64).toNat = 2 ^ 64 - 22 := rfl
    rw [error, BitVec.toNat_ofNat] at values
    omega
  · intro decided
    refine ⟨fun stale other past behind => ?_, fun stale past => ?_⟩
    · exact (cdevWrite_obeyed stale past device decided).same
        (cdevWrite_obeyed other behind device decided)
    · exact cdevWrite_obeyed stale past device decided

/-- A device in use by one reader, which blocks. -/
def waitingDevice : Device := ⟨Facility.start, 1, 1, 1⟩

/-- A write of the nine bytes before the digit is refused or turns blocking off, as the stack
has it. -/
theorem digit_from_stack :
    (cdevWrite ⟨List.replicate 20 0, by decide⟩ [] blockingText waitingDevice).returned =
      -einval.signExtend 64 ∧
    (cdevWrite leftover [] blockingText waitingDevice).returned = 9 ∧
    (cdevWrite leftover [] blockingText waitingDevice).device.cdevBlockingRead = 0 ∧
    ¬ Commanded blockingText waitingDevice := by
  have refused : (cdevWrite ⟨List.replicate 20 0, by decide⟩ [] blockingText
      waitingDevice).returned = -einval.signExtend 64 := rfl
  have accepted : (cdevWrite leftover [] blockingText waitingDevice).returned = 9 := rfl
  refine ⟨refused, accepted, rfl, ?_⟩
  intro commanded
  have same := (commanded.same ⟨List.replicate 20 0, by decide⟩ leftover [] []).1
  rw [refused, accepted] at same
  exact absurd same (by decide)

end TrippingRobot.Runtrace
