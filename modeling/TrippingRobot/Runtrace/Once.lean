import TrippingRobot.Runtrace.Delivery
import TrippingRobot.Runtrace.History

/-! For which counters and counts a freshly opened device delivers the ring once, and what
happens to a reader just below the wrap. -/

namespace TrippingRobot.Runtrace

open TrippingRobot.Data

variable {setting : Setting} {copy : Block Tracept} {reads : Nat}

/-! ## What the lines from the start make up -/

theorem textsFrom_head (ready : Ready facility pool copy exponent) (flags : CInt)
    (past : Nat → List UInt8) {number : CInt} (apart : number ≠ facility.nextTp) :
    ∃ rest, textsFrom flags past facility pool exponent number =
      (if (pool.cell (slotOf facility.tpCntMask number)).src.isNone then none
        else some (printTracePoint flags (pool.cell (slotOf facility.tpCntMask number))
          (past (slotOf facility.tpCntMask number)) 0).1) :: rest := by
  rw [textsFrom, windowFrom, toNat_sub_succ apart, ringRead_succ, ← slotOf_masked ready.mask_toNat,
    slotTexts]
  split
  · exact ⟨_, rfl⟩
  · exact ⟨_, rfl⟩

theorem slotOf_sub_poolSize (ready : Ready facility pool copy exponent) (number : CInt) :
    slotOf facility.tpCntMask (number - facility.tpPoolSize) = slotOf facility.tpCntMask number := by
  have fits := ready.fits
  have around := toNat_add_mod (number - facility.tpPoolSize) facility.tpPoolSize fits
  rw [sub_add_cancel, ready.poolSize, Nat.add_mod_right] at around
  rw [slotOf_masked ready.mask_toNat, slotOf_masked ready.mask_toNat, around]

/-- The slot of the newest record. -/
def Setting.newest (setting : Setting) : Tracept :=
  setting.pool.cell (slotOf setting.facility.tpCntMask (setting.facility.nextTp - 1))

/-- Where the overrun goes unnoticed, the newest record comes first and then the ring. -/
theorem Setting.joined_texts (ready : Ready setting.facility setting.pool copy setting.exponent)
    (missed : setting.start = (setting.facility.nextTp - setting.facility.tpPoolSize - 1, false)) :
    ∃ head, joined setting.texts = head ++ setting.live ∧
      (setting.newest.src.isNone = true → head = []) ∧
      (setting.newest.src.isNone = false → 4 < head.length) := by
  have far := opened_far ready
  have apart : setting.facility.nextTp - setting.facility.tpPoolSize - 1 ≠
      setting.facility.nextTp := by
    intro same
    rw [same, sub_self] at far
    cases far
  have slot : slotOf setting.facility.tpCntMask
      (setting.facility.nextTp - setting.facility.tpPoolSize - 1) =
        slotOf setting.facility.tpCntMask (setting.facility.nextTp - 1) := by
    rw [sub_right_comm, slotOf_sub_poolSize ready]
  have texts : setting.texts = textsFrom rtPrintDefault setting.past setting.facility setting.pool
      setting.exponent (setting.facility.nextTp - setting.facility.tpPoolSize - 1) := by
    rw [Setting.texts, missed]
  obtain ⟨rest, head⟩ := textsFrom_head ready rtPrintDefault setting.past apart
  have one : 1 ≤ (setting.facility.nextTp -
      (setting.facility.nextTp - setting.facility.tpPoolSize - 1)).toNat := by omega
  have drop : textsFrom rtPrintDefault setting.past _ _ _ _ = _ :=
    textsFrom_default_drop ready
      (setting.facility.nextTp - setting.facility.tpPoolSize - 1) one
  have oldest : setting.facility.nextTp - setting.facility.tpPoolSize - 1 + BitVec.ofNat 32 1 =
      setting.facility.nextTp - setting.facility.tpPoolSize := sub_add_cancel _ _
  rw [oldest, head, List.drop_succ_cons, List.drop_zero] at drop
  rw [texts, head, joined_cons, Setting.live, drop, slot]
  refine ⟨_, rfl, ?_, ?_⟩
  · intro blank
    rw [Setting.newest] at blank
    rw [if_pos blank]
    rfl
  · intro source
    rw [Setting.newest] at source
    rw [if_neg (by rw [source]; exact Bool.false_ne_true)]
    exact printTracePoint_long (by decide) _ _ _

/-- What a complete reading has got. -/
def Setting.whole (setting : Setting) : List UInt8 := setting.opening ++ joined setting.texts

theorem Setting.whole_iff (ready : Ready setting.facility setting.pool copy setting.exponent) :
    (setting.whole = setting.live ∨ setting.whole = ellipsisText ++ setting.live) ↔
      (TestExact setting.facility.tpPoolSize setting.facility.nextTp
          (setting.facility.nextTp - setting.facility.tpPoolSize - 1) ∨
        setting.newest.src.isNone = true) := by
  rw [Setting.whole, ← Setting.start_exact_iff ready]
  rcases setting.start_cases with start | start
  · have texts : joined setting.texts = setting.live := by
      rw [Setting.texts, start, Setting.live]
    rw [texts, Setting.opening]
    constructor
    · exact fun _ => .inl start
    · intro _
      rcases openingText_cases setting.facility setting.pool setting.start.1 setting.start.2 with
        none | ellipsis
      · exact .inl (by rw [none]; rfl)
      · exact .inr (by rw [ellipsis])
  · obtain ⟨head, texts, blank, line⟩ := Setting.joined_texts ready start
    have opening : setting.opening = [] := by
      rw [Setting.opening, start, openingText_false]
    have missed : setting.start ≠
        (setting.facility.nextTp - setting.facility.tpPoolSize, true) := by
      rw [start]
      simp
    rw [opening, List.nil_append, texts]
    simp only [missed, false_or]
    have four : ellipsisText.length = 4 := rfl
    constructor
    · intro either
      by_contra source
      have long := line (Bool.eq_false_iff.mpr source)
      rcases either with same | same
      · have size := congrArg List.length same
        rw [List.length_append] at size
        omega
      · have size := congrArg List.length same
        rw [List.length_append, List.length_append] at size
        omega
    · intro none
      rw [blank none]
      exact .inl rfl

theorem Reading.complete {process : Process} (reading : Reading setting reads process)
    (complete : setting.Complete reads) : process.text = setting.whole := by
  obtain ⟨begun, place⟩ := complete
  obtain ⟨_, text, _⟩ := reading.begun begun
  rw [text, place, List.take_length, Setting.whole]

theorem Reading.covered {process : Process}
    (ready : Ready setting.facility setting.pool copy setting.exponent)
    (reading : Reading setting reads process) (complete : setting.Complete reads) :
    poolCovered setting.facility.tpPoolSize := by
  obtain ⟨_, place⟩ := complete
  have size := ready.poolSize
  have positive := Nat.two_pow_pos setting.exponent
  have total : 2 ^ setting.exponent ≤ (setting.progress reads).place := by
    rw [place]
    rcases setting.texts_length_cases ready with same | ⟨more, _⟩
    · omega
    · omega
  obtain ⟨step, short, last⟩ :=
    exists_step setting.start.1.toNat (2 ^ setting.exponent - 1) positive
  have found := reading.inside step (by omega)
  rw [last, Nat.mod_eq_of_lt (by omega), ready.memSize] at found
  rw [poolCovered]
  omega

/-! ## A reader that is sent back -/

/-- Just below the wrap the overrun is noticed. -/
theorem Setting.start_unsteady
    (ready : Ready setting.facility setting.pool copy setting.exponent)
    (unsteady : ¬ Steady setting.facility.tpPoolSize setting.facility.nextTp) :
    setting.start = (setting.facility.nextTp - setting.facility.tpPoolSize, true) := by
  have far := opened_far ready
  rw [Setting.start_exact_iff ready, TestExact, if_neg (by omega)]
  rw [Steady] at unsteady
  omega

/-- A process that goes back to the oldest record with every read, and has got some of the
records before. -/
structure Lost (setting : Setting) (process : Process) : Prop where
  kept : Kept setting.facility process.device.facility setting.pool setting.exponent
  near : (setting.facility.nextTp - process.file.cursor).toNat ≤ setting.facility.tpPoolSize.toNat
  some : setting.whole ≠ []
  going : process.file.cursor ≠ setting.facility.nextTp →
    process.drained = false ∧ 4 < setting.opening.length + process.text.length
  arrived : process.file.cursor = setting.facility.nextTp →
    4 + setting.live.length < process.text.length

theorem Setting.whole_of_nothing {size : CInt} (wide : size.slt neededBufsize = false)
    (nothing : pieceText size setting.opening setting.texts = []) : setting.whole = [] := by
  obtain ⟨large, _⟩ := toInt_wide wide
  rw [pieceText] at nothing
  obtain ⟨blank, taken⟩ := List.append_eq_nil_iff.mp nothing
  rw [blank] at taken
  rw [Setting.whole, blank, joined_taken_nil (by omega) taken]
  rfl

theorem Lost.took {process : Process} {reader : Reader}
    (ready : Ready setting.facility setting.pool copy setting.exponent)
    (unsteady : ¬ Steady setting.facility.tpPoolSize setting.facility.nextTp)
    (lost : Lost setting process) (behind : process.file.cursor ≠ setting.facility.nextTp)
    (wide : (setting.sizes reads).slt neededBufsize = false)
    (called : process.reader.call .kernel rtPrintDefault setting.past (setting.sizes reads) =
      .ok reader) :
    Reader.Took process.reader reader setting.pool setting.exponent (setting.sizes reads)
      (setting.facility.nextTp - setting.facility.tpPoolSize) setting.opening setting.texts := by
  have start := Setting.start_unsteady ready unsteady
  rw [Setting.opening, Setting.texts, start]
  exact Reader.call_unsteady lost.kept wide unsteady lost.near behind called

theorem Lost.again {process : Process} {reader : Reader}
    (ready : Ready setting.facility setting.pool copy setting.exponent)
    (unsteady : ¬ Steady setting.facility.tpPoolSize setting.facility.nextTp)
    (lost : Lost setting process) (behind : process.file.cursor ≠ setting.facility.nextTp)
    (wide : (setting.sizes reads).slt neededBufsize = false)
    (took : Reader.Took process.reader reader setting.pool setting.exponent (setting.sizes reads)
      (setting.facility.nextTp - setting.facility.tpPoolSize) setting.opening setting.texts) :
    Lost setting (process.after reader) ∧ reader.finished = false := by
  obtain ⟨_, before⟩ := lost.going behind
  have start := Setting.start_unsteady ready unsteady
  have total : setting.texts.length = setting.facility.tpPoolSize.toNat := by
    rw [setting.texts_length, start, sub_sub_cancel]
  have most := slotsTaken_le (setting.sizes reads).toInt.toNat setting.opening.length
    setting.texts
  have some : pieceText (setting.sizes reads) setting.opening setting.texts ≠ [] :=
    fun nothing => lost.some (Setting.whole_of_nothing wide nothing)
  have unfinished : reader.finished = false := by
    rw [took.finished]
    simpa using some
  have text : (process.after reader).text = process.text ++
      pieceText (setting.sizes reads) setting.opening setting.texts := by
    simp only [Process.after, unfinished, Bool.false_eq_true, ↓reduceIte, took.text]
    rfl
  have left : (setting.facility.nextTp - (process.after reader).file.cursor).toNat =
      setting.facility.tpPoolSize.toNat - slotsTaken (setting.sizes reads).toInt.toNat
        setting.opening.length setting.texts := by
    rw [Process.after, File.cursor_setCursor, took.priv,
      toNat_sub_add (by rw [sub_sub_cancel]; omega), sub_sub_cancel]
  refine ⟨⟨lost.kept.trans took.kept, by omega, lost.some, ?_, ?_⟩, unfinished⟩
  · rw [text, List.length_append]
    exact fun _ => ⟨unfinished, by omega⟩
  · intro arrived
    have zero : (0 : CInt).toNat = 0 := rfl
    rw [arrived, sub_self] at left
    have all : slotsTaken (setting.sizes reads).toInt.toNat setting.opening.length
        setting.texts = setting.texts.length := by omega
    have live : joined setting.texts = setting.live := by
      rw [Setting.texts, start, Setting.live]
    rw [text, pieceText, all, List.take_length, live, List.length_append, List.length_append]
    omega

theorem Lost.call {process : Process} {reader : Reader}
    (ready : Ready setting.facility setting.pool copy setting.exponent)
    (unsteady : ¬ Steady setting.facility.tpPoolSize setting.facility.nextTp)
    (lost : Lost setting process) (behind : process.file.cursor ≠ setting.facility.nextTp)
    (called : process.reader.call .kernel rtPrintDefault setting.past (setting.sizes reads) =
      .ok reader) : Lost setting (process.after reader) ∧ reader.finished = false := by
  cases narrow : (setting.sizes reads).slt neededBufsize with
  | true =>
    obtain ⟨_, processReady⟩ := lost.kept.ready
    obtain ⟨_, before⟩ := lost.going behind
    obtain ⟨kept, cursor, same, unfinished⟩ := Process.after_refused processReady narrow called
    refine ⟨⟨lost.kept.trans kept, ?_, lost.some, ?_, ?_⟩, unfinished⟩
    · rw [cursor]
      exact lost.near
    · rw [same]
      exact fun _ => ⟨unfinished, before⟩
    · rw [cursor]
      exact fun arrived => absurd arrived behind
  | false =>
    have took := lost.took ready unsteady behind narrow called
    exact lost.again ready unsteady behind narrow took

theorem Lost.read {process after : Process}
    (ready : Ready setting.facility setting.pool copy setting.exponent)
    (unsteady : ¬ Steady setting.facility.tpPoolSize setting.facility.nextTp)
    (lost : Lost setting process)
    (read : process.read setting.past (setting.counts reads) = .ok after) : Lost setting after := by
  by_cases arrived : process.file.cursor = setting.facility.nextTp
  · rw [Process.read_arrived _ _ (arrived.trans lost.kept.nextTp.symm)] at read
    cases read
    exact ⟨lost.kept, lost.near, lost.some, fun apart => absurd arrived apart, lost.arrived⟩
  · have behind : process.file.cursor ≠ process.device.facility.nextTp := by
      rw [lost.kept.nextTp]
      exact arrived
    obtain ⟨reader, called⟩ := Process.call_of_read behind read
    obtain ⟨later, unfinished⟩ := lost.call ready unsteady arrived called
    rw [Process.read_of_call behind called (by simp [unfinished])] at read
    cases read
    exact later

theorem Reading.lost {process : Process}
    (ready : Ready setting.facility setting.pool copy setting.exponent)
    (reading : Reading setting (reads + 1) process) (going : process.drained = false)
    (idle : (setting.progress reads).begun = false)
    (wide : (setting.sizes reads).slt neededBufsize = false)
    (incomplete : ¬ setting.Complete (reads + 1)) : Lost setting process := by
  have apart : process.file.cursor ≠ setting.facility.nextTp :=
    fun arrived => incomplete ((reading.arrived_iff ready).mp arrived)
  obtain ⟨large, _⟩ := toInt_wide wide
  obtain ⟨fresh, _⟩ := progressAfter_idle idle
  have place : setting.progress reads = ⟨false, 0⟩ := fresh
  have taken : setting.taken reads =
      slotsTaken (setting.sizes reads).toInt.toNat setting.opening.length setting.texts := by
    rw [Setting.taken, place]
    rfl
  have next := Setting.progress_wide wide
  rw [place, Nat.zero_add, taken] at next
  have long (text : List UInt8) (member : some text ∈ setting.texts) := setting.texts_long text member
  obtain ⟨_, text, near⟩ := reading.begun (by rw [next])
  rw [next] at text
  dsimp only at text
  have left : setting.whole ≠ [] := by
    intro nothing
    obtain ⟨blank, none⟩ := List.append_eq_nil_iff.mp nothing
    rw [← List.take_append_drop (slotsTaken (setting.sizes reads).toInt.toNat 0 setting.texts)
      setting.texts, joined_append, List.append_eq_nil_iff] at none
    have all := slotsTaken_of_nothing (by omega) long none.1
    refine incomplete ⟨by rw [next], ?_⟩
    rw [next, blank]
    exact all
  refine ⟨reading.kept, near, left, fun _ => ⟨going, ?_⟩, fun arrived => absurd arrived apart⟩
  rw [text, List.length_append]
  rcases openingText_cases setting.facility setting.pool setting.start.1 setting.start.2 with
    none | ellipsis
  · have blank : setting.opening = [] := none
    have some : joined setting.texts ≠ [] := by
      intro nothing
      rw [Setting.whole, blank, nothing] at left
      exact left rfl
    have roomy : 260 ≤ (setting.sizes reads).toInt.toNat := by omega
    have line := joined_taken_long roomy long some
    rw [blank]
    simpa using line
  · have four : setting.opening.length = 4 := by
      rw [Setting.opening, ellipsis]
      rfl
    omega

/-! ## The whole run -/

/-- Below the wrap: nothing has been printed, or the first print took everything, or the
reader is sent back. -/
def Setting.Outcome (setting : Setting) (reads : Nat) (process : Process) : Prop :=
  (process.drained = false ∧ Reading setting reads process ∧
      (setting.progress reads).begun = false) ∨
    (∃ last, last ≤ reads ∧ Reading setting last process ∧ setting.Complete last ∧
      ∀ earlier, earlier + 1 < last → (setting.sizes earlier).slt neededBufsize = true) ∨
    Lost setting process

theorem Fresh.readAll_unsteady {start process : Process}
    (ready : Ready setting.facility setting.pool copy setting.exponent) (fresh : Fresh setting start)
    (unsteady : ¬ Steady setting.facility.tpPoolSize setting.facility.nextTp)
    (read : Runtrace.readAll setting.past setting.counts start reads = .ok process) :
    setting.Outcome reads process := by
  induction reads generalizing process with
  | zero =>
    cases read
    exact .inl ⟨fresh.going, fresh.reading ready, rfl⟩
  | succ reads ih =>
    obtain ⟨before, reached, either⟩ := readAll_succ read
    rcases ih reached with ⟨going, reading, idle⟩ | ⟨last, within, reading, complete, narrow⟩ | lost
    · obtain ⟨_, next⟩ := either.resolve_left (by simp [going])
      obtain ⟨_, narrow⟩ := progressAfter_idle idle
      rcases reading.read ready (.inr idle) next with ⟨going, later⟩ | ⟨_, last, within, later, complete⟩
      · cases small : (setting.sizes reads).slt neededBufsize with
        | true => exact .inl ⟨going, later, by rw [Setting.progress_narrow small]; exact idle⟩
        | false =>
          by_cases complete : setting.Complete (reads + 1)
          · exact .inr (.inl ⟨reads + 1, Nat.le_refl _, later, complete,
              fun earlier before => narrow earlier (by omega)⟩)
          · exact .inr (.inr (later.lost ready going idle small complete))
      · exact .inr (.inl ⟨last, within, later, complete,
          fun earlier before => narrow earlier (by omega)⟩)
    · rcases either with ⟨_, rfl⟩ | ⟨_, next⟩
      · exact .inr (.inl ⟨last, by omega, reading, complete, narrow⟩)
      · rw [Process.read_arrived _ _
          (((reading.arrived_iff ready).mpr complete).trans reading.kept.nextTp.symm)] at next
        cases next
        exact .inr (.inl ⟨last, by omega, ⟨reading.kept, reading.idle, reading.begun,
          reading.within, reading.inside, reading.fits⟩, complete, narrow⟩)
    · rcases either with ⟨_, rfl⟩ | ⟨_, next⟩
      · exact .inr (.inr lost)
      · exact .inr (.inr (lost.read ready unsteady next))

theorem Fresh.reads_return {start : Process}
    (ready : Ready setting.facility setting.pool copy setting.exponent) (fresh : Fresh setting start)
    (covered : poolCovered setting.facility.tpPoolSize)
    (fits : ∀ earlier, earlier < last → setting.Fits earlier)
    (onward : ∀ earlier, earlier < last →
      Steady setting.facility.tpPoolSize setting.facility.nextTp ∨
        (setting.progress earlier).begun = false) (within : reads ≤ last) :
    ∃ process, Runtrace.readAll setting.past setting.counts start reads = .ok process := by
  induction reads with
  | zero => exact ⟨start, rfl⟩
  | succ reads ih =>
    obtain ⟨before, reached⟩ := ih (by omega)
    cases drained : before.drained with
    | true => exact ⟨before, by simp [Runtrace.readAll, reached, bind, Except.bind, drained, pure, Except.pure]⟩
    | false =>
      have outcome := fresh.readAll ready (fun earlier small => onward earlier (by omega)) reached
      obtain ⟨_, reading⟩ := outcome.resolve_right (by simp [drained])
      obtain ⟨after, read⟩ := reading.returns ready covered (onward reads within) (fits reads within)
      exact ⟨after, by simp [Runtrace.readAll, reached, bind, Except.bind, drained, read]⟩

/-- A process reads until it gets nothing more, has then got the records of the ring, oldest
first and each once, perhaps after an ellipsis, and is left at the counter. -/
def DeliversOnce (setting : Setting) (start : Process) : Prop :=
  ∃ reads process, readAll setting.past setting.counts start reads = .ok process ∧
    process.drained = true ∧ process.file.cursor = setting.facility.nextTp ∧
    (process.text = setting.live ∨ process.text = ellipsisText ++ setting.live)

/-- Some reads get past all slots, each with room for its lines and the terminator. Just
below the wrap, where every read goes back, the first to print gets past them. -/
def Setting.ReadThrough (setting : Setting) : Prop :=
  ∃ reads, setting.Complete reads ∧ (∀ earlier, earlier < reads → setting.Fits earlier) ∧
    (Steady setting.facility.tpPoolSize setting.facility.nextTp ∨
      ∀ earlier, earlier + 1 < reads → (setting.sizes earlier).slt neededBufsize = true)

/-- Where the history is delivered once: the pool has its slots, the overrun test finds the
opened file too far back, or there is no newest record to be printed for that, and the reads
get through. -/
structure Setting.InReach (setting : Setting) : Prop where
  covered : poolCovered setting.facility.tpPoolSize
  noticed : TestExact setting.facility.tpPoolSize setting.facility.nextTp
      (setting.facility.nextTp - setting.facility.tpPoolSize - 1) ∨
    setting.newest.src.isNone = true
  through : setting.ReadThrough

theorem Reading.inReach {process : Process}
    (ready : Ready setting.facility setting.pool copy setting.exponent)
    (reading : Reading setting reads process) (complete : setting.Complete reads)
    (once : process.text = setting.live ∨ process.text = ellipsisText ++ setting.live)
    (onward : Steady setting.facility.tpPoolSize setting.facility.nextTp ∨
      ∀ earlier, earlier + 1 < reads → (setting.sizes earlier).slt neededBufsize = true) :
    setting.InReach where
  covered := reading.covered ready complete
  noticed := by
    rw [reading.complete complete] at once
    exact (Setting.whole_iff ready).mp once
  through := ⟨reads, complete, reading.fits, onward⟩

theorem Fresh.inReach {start : Process}
    (ready : Ready setting.facility setting.pool copy setting.exponent) (fresh : Fresh setting start)
    (once : DeliversOnce setting start) : setting.InReach := by
  obtain ⟨reads, process, read, drained, arrived, text⟩ := once
  by_cases steady : Steady setting.facility.tpPoolSize setting.facility.nextTp
  · obtain ⟨_, last, _, reading, complete⟩ :=
      (fresh.readAll ready (fun _ _ => .inl steady) read).resolve_left (by simp [drained])
    exact reading.inReach ready complete text (.inl steady)
  · rcases fresh.readAll_unsteady ready steady read with
      ⟨going, _⟩ | ⟨last, _, reading, complete, narrow⟩ | lost
    · rw [drained] at going
      cases going
    · exact reading.inReach ready complete text (.inr narrow)
    · have long := lost.arrived arrived
      have four : ellipsisText.length = 4 := rfl
      rcases text with same | same
      · rw [same] at long
        omega
      · rw [same, List.length_append] at long
        omega

theorem Fresh.deliversOnce {start : Process}
    (ready : Ready setting.facility setting.pool copy setting.exponent) (fresh : Fresh setting start)
    (reach : setting.InReach) : DeliversOnce setting start := by
  obtain ⟨last, complete, fits, narrow⟩ := reach.through
  have onward (earlier : Nat) (before : earlier < last) :
      Steady setting.facility.tpPoolSize setting.facility.nextTp ∨
        (setting.progress earlier).begun = false :=
    narrow.imp_right fun narrow => progressAfter_of_narrow fun first early => narrow first (by omega)
  obtain ⟨process, read⟩ := fresh.reads_return ready reach.covered fits onward (Nat.le_refl _)
  have once := (Setting.whole_iff ready).mpr reach.noticed
  rcases fresh.readAll ready onward read with ⟨going, reading⟩ | ⟨drained, early, _, reading, ends⟩
  · -- the next read finds the counter
    have arrived := (reading.arrived_iff ready).mpr complete
    refine ⟨last + 1, { process with drained := true }, ?_, rfl, arrived, ?_⟩
    · simp only [Runtrace.readAll, read, bind, Except.bind, going, Bool.false_eq_true, ↓reduceIte]
      exact Process.read_arrived _ _ (arrived.trans reading.kept.nextTp.symm)
    · change process.text = _ ∨ process.text = _
      rw [reading.complete complete]
      exact once
  · refine ⟨last, process, read, drained, (reading.arrived_iff ready).mpr ends, ?_⟩
    rw [reading.complete ends]
    exact once

/-- The records in the ring are the newest tracepoints that were made. -/
theorem Setting.live_history (ready : Ready setting.facility setting.pool copy setting.exponent)
    (run : Traced build setting.facility requests) : setting.live =
      (historyText rtPrintDefault 0
        (recent setting.facility.tpPoolSize.toNat requests)).flatten := by
  obtain ⟨pool, _, exponent, stored, holds⟩ :=
    run.remembers.2 (Option.isSome_of_eq_some ready.poolIs)
  have samePool : pool = setting.pool := by
    have known := ready.poolIs
    rw [holds.ready.poolIs] at known
    exact Option.some.inj known
  have sameExponent : exponent = setting.exponent := by
    have known := ready.poolSize
    rw [holds.ready.poolSize] at known
    exact Nat.pow_right_injective (Nat.le_refl 2) known
  subst samePool sameExponent
  have newest : List.Forall₂ Stores (recent (2 ^ setting.exponent) stored)
      (recent (2 ^ setting.exponent) requests) := by
    rw [recent, recent, holds.same.length_eq]
    exact List.forall₂_drop _ holds.same
  have shown := pointLines_newest
    ⟨rtPrintDefault, true, 0, setting.facility.tpCntMask, setting.past⟩
    (setting.facility.nextTp - setting.facility.tpPoolSize)
    (slotOf setting.facility.tpCntMask (setting.facility.nextTp - setting.facility.tpPoolSize)) 0
    (2 ^ setting.exponent - stored.length) newest
  rw [← holds.cells fun _ _ => rfl] at shown
  rw [Setting.live, textsFrom, windowFrom, sub_sub_cancel, ready.poolSize, ← shown.2]
  have lines := linesText_pointLines
    ⟨rtPrintDefault, true, 0, setting.facility.tpCntMask, setting.past⟩
    (setting.facility.nextTp - setting.facility.tpPoolSize)
    (slotOf setting.facility.tpCntMask (setting.facility.nextTp - setting.facility.tpPoolSize)) 0
    (ringRead setting.pool.cell (2 ^ setting.exponent)
      (setting.facility.nextTp - setting.facility.tpPoolSize).toNat (2 ^ setting.exponent))
  rw [linesText, List.flatMap_def] at lines
  exact lines.symm

/-- A freshly opened device delivers the records of the ring once exactly where that is in
reach; they are the newest tracepoints of its history. -/
theorem device_delivers_iff (past : Nat → List UInt8) (counts : Nat → BitVec 64)
    (ready : Ready device.facility pool copy exponent)
    (success : cdevOpen asModule moduleGet device file = (0, opened, openedFile)) :
    let setting : Setting := ⟨device.facility, pool, exponent, past, counts⟩
    (DeliversOnce setting ⟨opened, openedFile, [], false⟩ ↔ setting.InReach) ∧
      ∀ build requests, Traced build device.facility requests →
        setting.live = (historyText rtPrintDefault 0
          (recent device.facility.tpPoolSize.toNat requests)).flatten := by
  intro setting
  obtain ⟨facility, cursor⟩ := cdevOpen_cursor success
  have fresh : Fresh setting ⟨opened, openedFile, [], false⟩ := ⟨facility, cursor, rfl, rfl⟩
  exact ⟨⟨fresh.inReach ready, fresh.deliversOnce ready⟩,
    fun _ _ run => Setting.live_history ready run⟩

/-- A tracepoint without a message. -/
def plainRequest : Request := ⟨⟨5, 0⟩, 10, ⟨[101], by decide⟩, none⟩

/-- A pool of four after some of them. -/
def fourPool : Nat → Block Tracept
  | 0 => ⟨recordsIn (poolMemSize 4), fun _ => Tracept.zero⟩
  | made + 1 => recorded (fourPool made) ((BitVec.ofNat 32 made).toNat % 4) plainRequest.now
      plainRequest.line (some plainRequest.src) plainRequest.msg

def fourFacility (made : Nat) : Facility :=
  { ({ Facility.start with nrCpus := 1, lockInitialised := true }.resized 1 4).allocated .kernel
      (.granting 4) with tpPool := some (fourPool made), nextTp := BitVec.ofNat 32 made }

theorem fourPool_capacity (made : Nat) : (fourPool made).capacity = recordsIn (poolMemSize 4) := by
  induction made with
  | zero => rfl
  | succ made ih => exact ih

theorem fourFacility_ready (made : Nat) : Ready (fourFacility made) (fourPool made)
    ⟨recordsIn (poolMemSize 4), fun _ => Tracept.zero⟩ 2 :=
  ⟨by decide, by decide, rfl, rfl, rfl, rfl, rfl, fourPool_capacity made, rfl, rfl⟩

theorem fourFacility_traced (made : Nat) :
    Traced .kernel (fourFacility made) (List.replicate made plainRequest) := by
  induction made with
  | zero =>
    have initialised : runtraceInit .kernel (.granting 4) 1 Facility.start =
        .ok (0, { ({ Facility.start with nrCpus := 1 }.resized 1 256).allocated .kernel
          (.granting 4) with lockInitialised := true, wrLocked := false }) := rfl
    have run := Traced.init .start rfl initialised (by unfold FitsInt; decide)
    have reconfigured : runtraceReconfigure .kernel (.granting 4) 1 4
        { ({ Facility.start with nrCpus := 1 }.resized 1 256).allocated .kernel
          (.granting 4) with lockInitialised := true, wrLocked := false } =
        .ok (0, fourFacility 0) := rfl
    exact .reconfigure run reconfigured (by unfold FitsInt; decide)
  | succ made ih =>
    have inside : (fourFacility made).nextTp.toNat % 2 ^ 2 < (fourPool made).capacity := by
      rw [fourPool_capacity]
      exact Nat.lt_of_lt_of_le (Nat.mod_lt _ (by decide)) (by decide)
    have returned : makeTracept .kernel (.granting 4) plainRequest.now plainRequest.line
        (some plainRequest.src) plainRequest.msg (fourFacility made) =
          .ok (fourFacility (made + 1)) := by
      rw [makeTracept_ready (fourFacility_ready made) inside, fourFacility, fourFacility,
        BitVec.ofNat_add]
      rfl
    rw [List.replicate_succ']
    exact .make ih rfl plainRequest returned nofun

/-- A process that opens the device of such a facility. -/
def fourDevice (made : Nat) : Device := ⟨fourFacility made, 0, 0, 0⟩

def fourSetting (made : Nat) : Setting := ⟨fourFacility made, fourPool made, 2, fun _ => [], fun _ => 4096⟩

def fourOpened (made : Nat) : Process :=
  let (_, opened, openedFile) := cdevOpen true true (fourDevice made) ⟨0, true⟩
  ⟨opened, openedFile, [], false⟩

/-- After a single tracepoint the reader gets it twice. -/
theorem device_repeats_newest :
    Traced .kernel (fourFacility 1) [plainRequest] ∧
      (∃ opened openedFile, cdevOpen true true (fourDevice 1) ⟨0, true⟩ = (0, opened, openedFile) ∧
        fourOpened 1 = ⟨opened, openedFile, [], false⟩) ∧
      (readAll (fun _ => []) (fun _ => 4096) (fourOpened 1) 2).toOption.map Process.text =
        some ((fourSetting 1).live ++ (fourSetting 1).live) ∧
      ¬ DeliversOnce (fourSetting 1) (fourOpened 1) := by
  have fresh : Fresh (fourSetting 1) (fourOpened 1) := ⟨rfl, rfl, rfl, rfl⟩
  refine ⟨fourFacility_traced 1, ⟨_, _, rfl, rfl⟩, by decide +kernel, fun once => ?_⟩
  have noticed := (fresh.inReach (fourFacility_ready 1) once).noticed
  revert noticed
  decide +kernel

/-- After three it gets each once. -/
theorem device_delivers_three : DeliversOnce (fourSetting 3) (fourOpened 3) := by
  have ready : Ready (fourDevice 3).facility (fourPool 3) _ 2 := fourFacility_ready 3
  have opened : cdevOpen true true (fourDevice 3) ⟨0, true⟩ =
      (0, (fourOpened 3).device, (fourOpened 3).file) := rfl
  have fits : ∀ earlier, earlier < 1 → (fourSetting 3).Fits earlier := by
    intro earlier first
    obtain rfl : earlier = 0 := by omega
    unfold Setting.Fits
    decide +kernel
  have reach : (fourSetting 3).InReach :=
    ⟨by decide, .inl (by decide), 1, ⟨by decide +kernel, by decide +kernel⟩, fits, .inl (by decide)⟩
  exact (device_delivers_iff (fun _ => []) (fun _ => 4096) ready opened).1.mpr reach

end TrippingRobot.Runtrace
