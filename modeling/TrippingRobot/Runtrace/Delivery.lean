import TrippingRobot.Runtrace.Device
import TrippingRobot.Runtrace.Rejoin

/-! What a process gets that opens the device and reads it to the end, and for which
counters and counts it is the history of the ring, once. -/

namespace TrippingRobot.Runtrace

open TrippingRobot.Data

/-! ## The lines of a read -/

theorem printTracePoint_long {flags : CInt} (timed : isSet flags rtPrintTime = true) (tp : Tracept)
    (past : List UInt8) (prevTime : BitVec 64) : 4 < (printTracePoint flags tp past prevTime).1.length := by
  have wide (value : CInt) : 6 ≤ (formatUnsigned 6 ' ' value).length := by
    rw [formatUnsigned, ascii_length, padLeft_length]
    omega
  have column := wide ((pointTime flags tp.time / if isSet flags rtPrintTimeMs then 1000 else 1000000).setWidth 32)
  simp only [printTracePoint, pointText, timed, ↓reduceIte, List.length_append]
  omega

theorem slotTexts_long {flags mask : CInt} {past : Nat → List UInt8} {slot : Nat}
    {prevTime : BitVec 64} {cells : List Tracept} {text : List UInt8}
    (timed : isSet flags rtPrintTime = true)
    (member : some text ∈ slotTexts flags mask past slot prevTime cells) : 4 < text.length := by
  induction cells generalizing slot prevTime with
  | nil => cases member
  | cons tp rest ih =>
    rw [slotTexts] at member
    split at member
    · rcases List.mem_cons.mp member with same | later
      · cases same
      · exact ih later
    · rcases List.mem_cons.mp member with same | later
      · rw [Option.some.inj same]
        exact printTracePoint_long timed _ _ _
      · exact ih later

theorem slotsTaken_of_nothing {size : Nat} (large : 260 ≤ size)
    {texts : List (Option (List UInt8))} (long : ∀ text, some text ∈ texts → 4 < text.length)
    (nothing : joined (texts.take (slotsTaken size 0 texts)) = []) :
    slotsTaken size 0 texts = texts.length := by
  induction texts with
  | nil => rfl
  | cons text rest ih =>
    cases text with
    | none =>
      rw [slotsTaken, List.take_succ_cons] at nothing
      rw [slotsTaken, ih (fun text member => long text (List.mem_cons_of_mem _ member)) nothing,
        List.length_cons]
    | some text =>
      have some := long text List.mem_cons_self
      rw [slotsTaken, if_neg (by omega), List.take_succ_cons, joined_cons] at nothing
      have blank : text = [] := (List.append_eq_nil_iff.mp nothing).1
      rw [blank] at some
      cases some

theorem joined_taken_long {size : Nat} (large : 260 ≤ size)
    {texts : List (Option (List UInt8))} (long : ∀ text, some text ∈ texts → 4 < text.length)
    (some : joined texts ≠ []) : 4 < (joined (texts.take (slotsTaken size 0 texts))).length := by
  induction texts with
  | nil => exact absurd rfl some
  | cons text rest ih =>
    cases text with
    | none =>
      rw [slotsTaken, List.take_succ_cons]
      exact ih (fun text member => long text (List.mem_cons_of_mem _ member)) some
    | some text =>
      have line := long text List.mem_cons_self
      rw [slotsTaken, if_neg (by omega), List.take_succ_cons, joined_cons, List.length_append]
      exact Nat.lt_of_lt_of_le line (Nat.le_add_right _ _)

/-! ## How far the reads get -/

structure Progress where
  begun : Bool
  place : Nat

/-- The ellipsis is the first print's. -/
def Progress.opening (progress : Progress) (opening : List UInt8) : List UInt8 :=
  if progress.begun then [] else opening

/-- The progress that the lengths of the lines allow: a read whose size is too small prints
nothing, any other gets past the slots there is room for. -/
def progressAfter (sizes : Nat → CInt) (opening : List UInt8) (texts : List (Option (List UInt8))) :
    Nat → Progress
  | 0 => ⟨false, 0⟩
  | reads + 1 =>
    let before := progressAfter sizes opening texts reads
    if (sizes reads).slt neededBufsize then before
    else ⟨true, before.place + slotsTaken (sizes reads).toInt.toNat (before.opening opening).length
      (texts.drop before.place)⟩

/-- The lines a read prints and the terminator fit into its size. -/
def ReadFits (sizes : Nat → CInt) (opening : List UInt8) (texts : List (Option (List UInt8)))
    (reads : Nat) : Prop :=
  let before := progressAfter sizes opening texts reads
  (sizes reads).slt neededBufsize = false →
    ((pieceText (sizes reads) (before.opening opening) (texts.drop before.place)).length : Int) <
      (sizes reads).toInt

instance (sizes : Nat → CInt) (opening : List UInt8) (texts : List (Option (List UInt8)))
    (reads : Nat) : Decidable (ReadFits sizes opening texts reads) :=
  inferInstanceAs (Decidable (_ → _))

section
variable {sizes : Nat → CInt} {opening : List UInt8} {texts : List (Option (List UInt8))}
  {reads : Nat}

theorem progressAfter_narrow (narrow : (sizes reads).slt neededBufsize = true) :
    progressAfter sizes opening texts (reads + 1) = progressAfter sizes opening texts reads := by
  simp [progressAfter, narrow]

theorem progressAfter_wide (wide : (sizes reads).slt neededBufsize = false) :
    progressAfter sizes opening texts (reads + 1) =
      ⟨true, (progressAfter sizes opening texts reads).place +
        slotsTaken (sizes reads).toInt.toNat
          ((progressAfter sizes opening texts reads).opening opening).length
          (texts.drop (progressAfter sizes opening texts reads).place)⟩ := by
  simp [progressAfter, wide]

theorem progressAfter_idle (idle : (progressAfter sizes opening texts reads).begun = false) :
    progressAfter sizes opening texts reads = ⟨false, 0⟩ ∧
      ∀ earlier, earlier < reads → (sizes earlier).slt neededBufsize = true := by
  induction reads with
  | zero => exact ⟨rfl, nofun⟩
  | succ reads ih =>
    cases small : (sizes reads).slt neededBufsize with
    | false =>
      rw [progressAfter_wide small] at idle
      cases idle
    | true =>
      rw [progressAfter_narrow small] at idle ⊢
      obtain ⟨same, narrow⟩ := ih idle
      refine ⟨same, fun earlier within => ?_⟩
      rcases Nat.lt_succ_iff_lt_or_eq.mp within with before | rfl
      · exact narrow earlier before
      · exact small

theorem progressAfter_of_narrow
    (narrow : ∀ earlier, earlier < reads → (sizes earlier).slt neededBufsize = true) :
    (progressAfter sizes opening texts reads).begun = false := by
  induction reads with
  | zero => rfl
  | succ reads ih =>
    rw [progressAfter_narrow (narrow reads (Nat.lt_succ_self _))]
    exact ih fun earlier before => narrow earlier (by omega)

end

/-! ## The start of a freshly opened file -/

/-- What a process gets depends on: the facility with its ring, the memory behind each
slot's `msg`, and the counts of the reads. -/
structure Setting where
  facility : Facility
  pool : Block Tracept
  exponent : Nat
  past : Nat → List UInt8
  counts : Nat → BitVec 64

namespace Setting

/-- Where `print_trace_stack` starts for a freshly opened file, and whether it notices an
overrun. -/
def start (setting : Setting) : CInt × Bool :=
  adjustTpNum setting.facility setting.facility.nextTp
    (setting.facility.nextTp - setting.facility.tpPoolSize - 1)

/-- The lines from there to the counter. -/
def texts (setting : Setting) : List (Option (List UInt8)) :=
  textsFrom rtPrintDefault setting.past setting.facility setting.pool setting.exponent setting.start.1

def opening (setting : Setting) : List UInt8 :=
  openingText setting.facility setting.pool setting.start.1 setting.start.2

/-- The sizes `print_trace_stack` takes the counts for. -/
def sizes (setting : Setting) (reads : Nat) : CInt := (setting.counts reads).setWidth 32

def progress (setting : Setting) (reads : Nat) : Progress :=
  progressAfter setting.sizes setting.opening setting.texts reads

def Fits (setting : Setting) (reads : Nat) : Prop :=
  ReadFits setting.sizes setting.opening setting.texts reads

/-- Nothing is left between the cursor and the counter. -/
def Complete (setting : Setting) (reads : Nat) : Prop :=
  (setting.progress reads).begun = true ∧ (setting.progress reads).place = setting.texts.length

/-- The lines of the records in the ring, oldest first. -/
def live (setting : Setting) : List UInt8 :=
  joined (textsFrom rtPrintDefault setting.past setting.facility setting.pool setting.exponent
    (setting.facility.nextTp - setting.facility.tpPoolSize))

end Setting

variable {setting : Setting} {copy : Block Tracept} {reads : Nat}

theorem openingText_cases (facility : Facility) (pool : Block Tracept) (tpNum : CInt)
    (overrun : Bool) : openingText facility pool tpNum overrun = [] ∨
      openingText facility pool tpNum overrun = ellipsisText := by
  unfold openingText
  split
  · exact .inr rfl
  · exact .inl rfl

theorem opened_far (ready : Ready facility pool copy exponent) :
    (facility.nextTp - (facility.nextTp - facility.tpPoolSize - 1)).toNat =
      facility.tpPoolSize.toNat + 1 := by
  have bounds := ready.sized.bounds
  have back : facility.nextTp - (facility.nextTp - facility.tpPoolSize - 1) =
      facility.tpPoolSize + 1 := by
    rw [BitVec.sub_sub, sub_sub_cancel]
  have one : (1 : CInt).toNat = 1 := rfl
  rw [back, BitVec.toNat_add, one]
  omega

theorem Setting.start_exact_iff
    (ready : Ready setting.facility setting.pool copy setting.exponent) :
    setting.start = (setting.facility.nextTp - setting.facility.tpPoolSize, true) ↔
      TestExact setting.facility.tpPoolSize setting.facility.nextTp
        (setting.facility.nextTp - setting.facility.tpPoolSize - 1) := by
  have far := opened_far ready
  rw [← adjustTpNum_eq_expected_iff ready.sized, Setting.start, expectedStart, if_neg (by omega)]

theorem Setting.start_cases (setting : Setting) :
    setting.start = (setting.facility.nextTp - setting.facility.tpPoolSize, true) ∨
      setting.start = (setting.facility.nextTp - setting.facility.tpPoolSize - 1, false) :=
  (adjustTpNum_either setting.facility _ _).symm

@[simp] theorem Setting.texts_length (setting : Setting) :
    setting.texts.length = (setting.facility.nextTp - setting.start.1).toNat :=
  textsFrom_length _ _ _ _ _ _

/-- From the start to the counter it is the ring, or one slot more. -/
theorem Setting.texts_length_cases
    (ready : Ready setting.facility setting.pool copy setting.exponent) :
    setting.texts.length = setting.facility.tpPoolSize.toNat ∨
      setting.texts.length = setting.facility.tpPoolSize.toNat + 1 ∧ setting.opening = [] := by
  rw [setting.texts_length, Setting.opening]
  rcases setting.start_cases with start | start
  · rw [start]
    exact .inl (by rw [sub_sub_cancel])
  · rw [start]
    exact .inr ⟨opened_far ready, openingText_false _ _ _⟩

theorem Setting.texts_long (setting : Setting) (text : List UInt8)
    (member : some text ∈ setting.texts) : 4 < text.length :=
  slotTexts_long (by decide) member

/-! ## Reads that go on where the last one stopped -/

structure Reading (setting : Setting) (reads : Nat) (process : Process) : Prop where
  kept : Kept setting.facility process.device.facility setting.pool setting.exponent
  idle : (setting.progress reads).begun = false →
    process.file.cursor = setting.facility.nextTp - setting.facility.tpPoolSize - 1 ∧
      process.text = []
  begun : (setting.progress reads).begun = true →
    process.file.cursor = setting.start.1 + BitVec.ofNat 32 (setting.progress reads).place ∧
      process.text = setting.opening ++ joined (setting.texts.take (setting.progress reads).place) ∧
      (setting.facility.nextTp - process.file.cursor).toNat ≤ setting.facility.tpPoolSize.toNat
  within : (setting.progress reads).place ≤ setting.texts.length
  inside : ∀ step, step < (setting.progress reads).place →
    (setting.start.1.toNat + step) % 2 ^ setting.exponent <
      recordsIn setting.facility.tpPoolMemSize
  fits : ∀ earlier, earlier < reads → setting.Fits earlier

theorem Reading.arrived_iff {process : Process}
    (ready : Ready setting.facility setting.pool copy setting.exponent)
    (reading : Reading setting reads process) :
    process.file.cursor = setting.facility.nextTp ↔ setting.Complete reads := by
  have far := opened_far ready
  have within := reading.within
  have zero : (0 : CInt).toNat = 0 := rfl
  rw [setting.texts_length] at within
  rw [Setting.Complete, setting.texts_length]
  cases begun : (setting.progress reads).begun with
  | false =>
    obtain ⟨cursor, _⟩ := reading.idle begun
    simp only [Bool.false_eq_true, false_and, iff_false]
    intro arrived
    rw [← cursor, arrived, sub_self] at far
    omega
  | true =>
    obtain ⟨cursor, _⟩ := reading.begun begun
    have left := toNat_sub_add within
    rw [← cursor] at left
    simp only [true_and]
    constructor
    · intro arrived
      rw [arrived, sub_self] at left
      omega
    · intro all
      have none : setting.facility.nextTp - process.file.cursor = 0 :=
        BitVec.eq_of_toNat_eq (by omega)
      exact (sub_eq_zero.mp none).symm

/-- Without a difference column the rest of the lines is what a call there prints. -/
theorem textsFrom_default_drop (ready : Ready facility pool copy exponent) (number : CInt)
    {position : Nat} (within : position ≤ (facility.nextTp - number).toNat) :
    textsFrom rtPrintDefault past facility pool exponent (number + BitVec.ofNat 32 position) =
      (textsFrom rtPrintDefault past facility pool exponent number).drop position := by
  have unseen (prevTime : BitVec 64) (cells : List Tracept) :
      RestartUnseen rtPrintDefault prevTime cells := fun wanted => absurd wanted (by decide)
  rw [textsFrom_drop rtPrintDefault past number ready position within, slotTexts_unseen (unseen _ _),
    textsFrom]

theorem Kept.adjustTpNum {after : Facility} (kept : Kept facility after pool exponent)
    (lastTp priv : CInt) : adjustTpNum after lastTp priv = adjustTpNum facility lastTp priv := by
  simp only [Runtrace.adjustTpNum, kept.poolSize, kept.mask]

/-- What a read adds that prints from the progress on. -/
def Setting.ReadTook (setting : Setting) (reads : Nat) (before after : Reader) : Prop :=
  Reader.Took before after setting.pool setting.exponent (setting.sizes reads)
    (setting.start.1 + BitVec.ofNat 32 (setting.progress reads).place)
    ((setting.progress reads).opening setting.opening)
    (setting.texts.drop (setting.progress reads).place)

/-- A read that is not at the counter yet takes up at the progress. -/
theorem Reading.resumes {process : Process}
    (ready : Ready setting.facility setting.pool copy setting.exponent)
    (reading : Reading setting reads process)
    (onward : Steady setting.facility.tpPoolSize setting.facility.nextTp ∨
      (setting.progress reads).begun = false) :
    ∃ tpNum overrun, startTpNum process.reader.facility process.reader.facility.nextTp
        (some process.reader.priv) = (tpNum, overrun) ∧
      tpNum = setting.start.1 + BitVec.ofNat 32 (setting.progress reads).place ∧
      openingText process.reader.facility setting.pool tpNum overrun =
        (setting.progress reads).opening setting.opening ∧
      textsFrom rtPrintDefault setting.past process.reader.facility setting.pool setting.exponent
        tpNum = setting.texts.drop (setting.progress reads).place := by
  cases begun : (setting.progress reads).begun with
  | false =>
    obtain ⟨same, _⟩ := progressAfter_idle begun
    obtain ⟨cursor, _⟩ := reading.idle begun
    have place : setting.progress reads = ⟨false, 0⟩ := same
    refine ⟨setting.start.1, setting.start.2, ?_, ?_, ?_, ?_⟩
    · rw [startTpNum, Process.reader, reading.kept.adjustTpNum, reading.kept.nextTp, cursor]
      rfl
    · rw [place, BitVec.add_zero]
    · rw [place, Process.reader, reading.kept.openingText]
      rfl
    · rw [place, Process.reader, reading.kept.textsFrom]
      rfl
  | true =>
    obtain ⟨cursor, _, near⟩ := reading.begun begun
    obtain ⟨_, processReady⟩ := reading.kept.ready
    have steady := onward.resolve_right (by simp [begun])
    have within := reading.within
    rw [setting.texts_length] at within
    refine ⟨process.file.cursor, false, ?_, cursor, ?_, ?_⟩
    · exact startTpNum_steady processReady
        (by rw [Process.reader, reading.kept.poolSize, reading.kept.nextTp]; exact steady)
        (by rw [Process.reader, reading.kept.poolSize, reading.kept.nextTp]; exact near)
    · rw [openingText_false, Progress.opening, if_pos begun]
    · rw [Process.reader, reading.kept.textsFrom, cursor, textsFrom_default_drop ready _ within,
        Setting.texts]

theorem Reading.took {process : Process} {reader : Reader}
    (ready : Ready setting.facility setting.pool copy setting.exponent)
    (reading : Reading setting reads process)
    (behind : process.file.cursor ≠ setting.facility.nextTp)
    (onward : Steady setting.facility.tpPoolSize setting.facility.nextTp ∨
      (setting.progress reads).begun = false)
    (wide : (setting.sizes reads).slt neededBufsize = false)
    (called : process.reader.call .kernel rtPrintDefault setting.past (setting.sizes reads) =
      .ok reader) :
    setting.ReadTook reads process.reader reader := by
  obtain ⟨_, processReady⟩ := reading.kept.ready
  obtain ⟨tpNum, overrun, start, place, opening, texts⟩ := reading.resumes ready onward
  have took := Reader.call_walk processReady wide (by rw [Process.reader, reading.kept.nextTp]; exact behind)
    start called
  rw [opening, texts, place] at took
  exact took

/-- The slots a read gets past from the progress on. -/
def Setting.taken (setting : Setting) (reads : Nat) : Nat :=
  slotsTaken (setting.sizes reads).toInt.toNat
    ((setting.progress reads).opening setting.opening).length
    (setting.texts.drop (setting.progress reads).place)

theorem Setting.progress_wide (wide : (setting.sizes reads).slt neededBufsize = false) :
    setting.progress (reads + 1) = ⟨true, (setting.progress reads).place + setting.taken reads⟩ :=
  progressAfter_wide wide

theorem Setting.progress_narrow (narrow : (setting.sizes reads).slt neededBufsize = true) :
    setting.progress (reads + 1) = setting.progress reads :=
  progressAfter_narrow narrow

theorem Setting.taken_le (setting : Setting) (reads : Nat) :
    setting.taken reads ≤ setting.texts.length - (setting.progress reads).place := by
  have most := slotsTaken_le (setting.sizes reads).toInt.toNat
    ((setting.progress reads).opening setting.opening).length
    (setting.texts.drop (setting.progress reads).place)
  rwa [List.length_drop] at most

/-- The first read to print gets past one slot at least, where there is one too many. -/
theorem Setting.left_le (ready : Ready setting.facility setting.pool copy setting.exponent)
    (wide : (setting.sizes reads).slt neededBufsize = false) :
    setting.texts.length - ((setting.progress reads).place + setting.taken reads) ≤
      setting.facility.tpPoolSize.toNat := by
  obtain ⟨large, _⟩ := toInt_wide wide
  rcases setting.texts_length_cases ready with ring | ⟨more, blank⟩
  · omega
  · cases place : (setting.progress reads).place with
    | succ place => omega
    | zero =>
      have some : setting.texts ≠ [] := by
        intro none
        rw [none] at more
        cases more
      have opening : (setting.progress reads).opening setting.opening = [] := by
        rw [Progress.opening, blank, ite_self]
      have positive : 0 < setting.taken reads := by
        rw [Setting.taken, opening, place]
        exact slotsTaken_positive (by omega) some
      omega

theorem Reading.text_add {process : Process} (reading : Reading setting reads process) :
    process.text ++ pieceText (setting.sizes reads)
        ((setting.progress reads).opening setting.opening)
        (setting.texts.drop (setting.progress reads).place) =
      setting.opening ++
        joined (setting.texts.take ((setting.progress reads).place + setting.taken reads)) := by
  rw [pieceText, ← Setting.taken]
  cases begun : (setting.progress reads).begun with
  | false =>
    obtain ⟨same, _⟩ := progressAfter_idle begun
    obtain ⟨_, text⟩ := reading.idle begun
    have place : setting.progress reads = ⟨false, 0⟩ := same
    rw [text, place, Progress.opening, Nat.zero_add]
    rfl
  | true =>
    obtain ⟨_, text, _⟩ := reading.begun begun
    rw [text, Progress.opening, if_pos begun, List.nil_append, List.append_assoc,
      ← joined_append, ← List.take_add]

theorem Setting.ReadTook.cursor {process : Process} {reader : Reader}
    (took : setting.ReadTook reads process.reader reader) :
    (process.after reader).file.cursor = setting.start.1 +
      BitVec.ofNat 32 ((setting.progress reads).place + setting.taken reads) := by
  rw [Process.after, File.cursor_setCursor, took.priv, ← Setting.taken, BitVec.ofNat_add,
    BitVec.add_assoc]

theorem Reading.text_after {process : Process} {reader : Reader}
    (reading : Reading setting reads process)
    (took : setting.ReadTook reads process.reader reader) :
    (process.after reader).text = setting.opening ++
      joined (setting.texts.take ((setting.progress reads).place + setting.taken reads)) := by
  have added := reading.text_add
  rw [Process.after]
  dsimp only
  split
  · rename_i finished
    rw [took.finished, List.isEmpty_iff] at finished
    rw [← added, finished, List.append_nil]
  · rw [took.text, ← added]
    rfl

theorem Reading.inside_after {process : Process} {reader : Reader}
    (ready : Ready setting.facility setting.pool copy setting.exponent)
    (reading : Reading setting reads process)
    (took : setting.ReadTook reads process.reader reader) :
    ∀ step, step < (setting.progress reads).place + setting.taken reads →
      (setting.start.1.toNat + step) % 2 ^ setting.exponent <
        recordsIn setting.facility.tpPoolMemSize := by
  intro step earlier
  rcases Nat.lt_or_ge step (setting.progress reads).place with before | later
  · exact reading.inside step before
  · have most := setting.taken_le reads
    have bound := (setting.facility.nextTp - setting.start.1).isLt
    have total := setting.texts_length
    have fits := ready.fits
    have small : (BitVec.ofNat 32 (setting.progress reads).place).toNat =
        (setting.progress reads).place := by
      rw [BitVec.toNat_ofNat]
      exact Nat.mod_eq_of_lt (by omega)
    have found := took.inside (step - (setting.progress reads).place) (by
      rw [← Setting.taken]
      omega)
    rw [Nat.add_mod, toNat_add_mod _ _ fits, small, ← Nat.add_mod, Nat.add_assoc,
      Nat.add_sub_cancel' later] at found
    exact reading.kept.memSize ▸ found

theorem Reading.fits_succ {process : Process} (reading : Reading setting reads process)
    (last : setting.Fits reads) : ∀ earlier, earlier < reads + 1 → setting.Fits earlier := by
  intro earlier before
  rcases Nat.lt_succ_iff_lt_or_eq.mp before with past | rfl
  · exact reading.fits earlier past
  · exact last

theorem Setting.ReadTook.complete {before reader : Reader}
    (wide : (setting.sizes reads).slt neededBufsize = false)
    (within : (setting.progress reads).place ≤ setting.texts.length)
    (took : setting.ReadTook reads before reader) (finished : reader.finished = true) :
    setting.Complete (reads + 1) := by
  rw [took.finished, List.isEmpty_iff] at finished
  obtain ⟨blank, nothing⟩ := List.append_eq_nil_iff.mp finished
  obtain ⟨large, _⟩ := toInt_wide wide
  rw [blank] at nothing
  have all := slotsTaken_of_nothing (by omega)
    (fun text member => setting.texts_long text (List.mem_of_mem_drop member)) nothing
  have taken : setting.taken reads = setting.texts.length - (setting.progress reads).place := by
    rw [Setting.taken, blank, ← List.length_drop]
    exact all
  rw [Setting.Complete, Setting.progress_wide wide]
  refine ⟨rfl, ?_⟩
  dsimp only
  omega

theorem Reading.advance {process : Process} {reader : Reader}
    (ready : Ready setting.facility setting.pool copy setting.exponent)
    (reading : Reading setting reads process)
    (wide : (setting.sizes reads).slt neededBufsize = false)
    (took : setting.ReadTook reads process.reader reader) :
    Reading setting (reads + 1) (process.after reader) := by
  have within := reading.within
  have most := setting.taken_le reads
  have left := Setting.left_le ready wide
  have total := setting.texts_length
  have distance : (setting.facility.nextTp - (process.after reader).file.cursor).toNat ≤
      setting.facility.tpPoolSize.toNat := by
    rw [took.cursor, toNat_sub_add (by omega)]
    omega
  refine ⟨reading.kept.trans took.kept, ?_, ?_, ?_, ?_, reading.fits_succ fun _ => took.fits⟩
  · rw [Setting.progress_wide wide]
    intro idle
    cases idle
  · rw [Setting.progress_wide wide]
    exact fun _ => ⟨took.cursor, reading.text_after took, distance⟩
  · rw [Setting.progress_wide wide]
    dsimp only
    omega
  · rw [Setting.progress_wide wide]
    exact reading.inside_after ready took

/-! ## Runs of reads -/

/-- After a read the process has gone on, or it had nothing left to get. -/
def Reading.Outcome (setting : Setting) (reads : Nat) (process : Process) : Prop :=
  process.drained = false ∧ Reading setting reads process ∨
    process.drained = true ∧
      ∃ last, last ≤ reads ∧ Reading setting last process ∧ setting.Complete last

/-- A call in a read, whatever its count: it goes on, and finds nothing only at the end. -/
theorem Reading.called {process : Process} {reader : Reader}
    (ready : Ready setting.facility setting.pool copy setting.exponent)
    (reading : Reading setting reads process)
    (behind : process.file.cursor ≠ setting.facility.nextTp)
    (onward : Steady setting.facility.tpPoolSize setting.facility.nextTp ∨
      (setting.progress reads).begun = false)
    (called : process.reader.call .kernel rtPrintDefault setting.past (setting.sizes reads) =
      .ok reader) :
    Reading setting (reads + 1) (process.after reader) ∧
      (reader.finished = true → setting.Complete (reads + 1)) := by
  cases narrow : (setting.sizes reads).slt neededBufsize with
  | true =>
    obtain ⟨_, processReady⟩ := reading.kept.ready
    obtain ⟨kept, cursor, same, unfinished⟩ := Process.after_refused processReady narrow called
    refine ⟨⟨reading.kept.trans kept, ?_, ?_, ?_, ?_, ?_⟩, ?_⟩
    · rw [Setting.progress_narrow narrow, cursor, same]
      exact reading.idle
    · rw [Setting.progress_narrow narrow, cursor, same]
      exact reading.begun
    · rw [Setting.progress_narrow narrow]
      exact reading.within
    · rw [Setting.progress_narrow narrow]
      exact reading.inside
    · apply reading.fits_succ
      intro wide
      rw [narrow] at wide
      cases wide
    · intro finished
      rw [unfinished] at finished
      cases finished
  | false =>
    have took := reading.took ready behind onward narrow called
    exact ⟨reading.advance ready narrow took, took.complete narrow reading.within⟩

theorem Reading.ends {process : Process} {reader : Reader}
    (ready : Ready setting.facility setting.pool copy setting.exponent)
    (later : Reading setting reads (process.after reader))
    (complete : reader.finished = true → setting.Complete reads)
    (finished : reader.finished = true) : reader.priv = reader.facility.nextTp := by
  have arrived := (later.arrived_iff ready).mpr (complete finished)
  rw [Process.after, File.cursor_setCursor] at arrived
  rw [arrived]
  exact later.kept.nextTp.symm

theorem Reading.read {process after : Process}
    (ready : Ready setting.facility setting.pool copy setting.exponent)
    (reading : Reading setting reads process)
    (onward : Steady setting.facility.tpPoolSize setting.facility.nextTp ∨
      (setting.progress reads).begun = false)
    (read : process.read setting.past (setting.counts reads) = .ok after) :
    Reading.Outcome setting (reads + 1) after := by
  by_cases arrived : process.file.cursor = setting.facility.nextTp
  · rw [Process.read_arrived _ _ (arrived.trans reading.kept.nextTp.symm)] at read
    cases read
    exact .inr ⟨rfl, reads, Nat.le_succ _,
      ⟨reading.kept, reading.idle, reading.begun, reading.within, reading.inside, reading.fits⟩,
      (reading.arrived_iff ready).mp arrived⟩
  · have behind : process.file.cursor ≠ process.device.facility.nextTp := by
      rw [reading.kept.nextTp]
      exact arrived
    obtain ⟨reader, called⟩ := Process.call_of_read behind read
    obtain ⟨later, complete⟩ := reading.called ready arrived onward called
    rw [Process.read_of_call behind called (later.ends ready complete)] at read
    cases read
    cases finished : reader.finished with
    | false => exact .inl ⟨finished, later⟩
    | true => exact .inr ⟨finished, reads + 1, Nat.le_refl _, later, complete finished⟩

/-- Where the pool has room for its slots, a read whose lines fit its size returns. -/
theorem Reading.returns {process : Process}
    (ready : Ready setting.facility setting.pool copy setting.exponent)
    (covered : poolCovered setting.facility.tpPoolSize)
    (reading : Reading setting reads process)
    (onward : Steady setting.facility.tpPoolSize setting.facility.nextTp ∨
      (setting.progress reads).begun = false) (fits : setting.Fits reads) :
    ∃ after, process.read setting.past (setting.counts reads) = .ok after := by
  by_cases arrived : process.file.cursor = setting.facility.nextTp
  · exact ⟨_, Process.read_arrived _ _ (arrived.trans reading.kept.nextTp.symm)⟩
  · have behind : process.file.cursor ≠ process.device.facility.nextTp := by
      rw [reading.kept.nextTp]
      exact arrived
    obtain ⟨_, processReady⟩ := reading.kept.ready
    have returned : ∃ reader, process.reader.call .kernel rtPrintDefault setting.past
        (setting.sizes reads) = .ok reader := by
      cases narrow : (setting.sizes reads).slt neededBufsize with
      | true =>
        obtain ⟨reader, called, _⟩ :=
          process.reader.call_refused rtPrintDefault setting.past processReady narrow
        exact ⟨reader, called⟩
      | false =>
        obtain ⟨tpNum, overrun, start, _, opening, texts⟩ := reading.resumes ready onward
        apply Reader.call_returns processReady _ narrow behind start
        · rw [opening, texts]
          exact fits narrow
        · rw [Process.reader, reading.kept.poolSize]
          exact covered
    obtain ⟨reader, called⟩ := returned
    obtain ⟨later, complete⟩ := reading.called ready arrived onward called
    exact ⟨_, Process.read_of_call behind called (later.ends ready complete)⟩

structure Fresh (setting : Setting) (process : Process) : Prop where
  facility : process.device.facility = setting.facility
  cursor : process.file.cursor = setting.facility.nextTp - setting.facility.tpPoolSize - 1
  text : process.text = []
  going : process.drained = false

theorem Fresh.reading {process : Process}
    (ready : Ready setting.facility setting.pool copy setting.exponent)
    (fresh : Fresh setting process) : Reading setting 0 process where
  kept := by
    rw [fresh.facility]
    exact .refl ready
  idle := fun _ => ⟨fresh.cursor, fresh.text⟩
  begun := nofun
  within := Nat.zero_le _
  inside := nofun
  fits := nofun

theorem readAll_succ {start after : Process}
    (read : readAll past counts start (reads + 1) = .ok after) :
    ∃ before, readAll past counts start reads = .ok before ∧
      (before.drained = true ∧ after = before ∨
        before.drained = false ∧ before.read past (counts reads) = .ok after) := by
  simp only [readAll, bind, Except.bind] at read
  split at read
  · cases read
  · rename_i before reached
    refine ⟨before, reached, ?_⟩
    split at read
    · rename_i drained
      cases read
      exact .inl ⟨drained, rfl⟩
    · rename_i going
      exact .inr ⟨by simpa using going, read⟩

theorem Fresh.readAll {start process : Process}
    (ready : Ready setting.facility setting.pool copy setting.exponent) (fresh : Fresh setting start)
    (onward : ∀ earlier, earlier < reads →
      Steady setting.facility.tpPoolSize setting.facility.nextTp ∨
        (setting.progress earlier).begun = false)
    (read : readAll setting.past setting.counts start reads = .ok process) :
    Reading.Outcome setting reads process := by
  induction reads generalizing process with
  | zero =>
    cases read
    exact .inl ⟨fresh.going, fresh.reading ready⟩
  | succ reads ih =>
    obtain ⟨before, reached, either⟩ := readAll_succ read
    have outcome := ih (fun earlier within => onward earlier (by omega)) reached
    rcases either with ⟨drained, rfl⟩ | ⟨going, next⟩
    · rcases outcome with ⟨undrained, _⟩ | ⟨_, last, within, reading, complete⟩
      · rw [drained] at undrained
        cases undrained
      · exact .inr ⟨drained, last, by omega, reading, complete⟩
    · rcases outcome with ⟨_, reading⟩ | ⟨drained, _⟩
      · exact reading.read ready (onward reads (by omega)) next
      · rw [going] at drained
        cases drained

end TrippingRobot.Runtrace
