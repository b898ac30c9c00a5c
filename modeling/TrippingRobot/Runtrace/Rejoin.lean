import TrippingRobot.Runtrace.Restart

/-! When the pieces a reader gets with one cursor make up the text of a single call. Each
call starts where the one before stopped, but its differences start again, and just below
the wrap it goes back to the oldest place of the ring. -/

namespace TrippingRobot.Runtrace

open TrippingRobot.Data

/-! ## A reader whose cursor the overrun test accepts -/

/-- Where the piece of a call begins, if every piece before it was as good as a part of
the whole. -/
def pieceStart (sizes : Nat → CInt) (texts : List (Option (List UInt8))) : Nat → Nat
  | 0 => 0
  | count + 1 =>
    pieceStart sizes texts count +
      slotsTaken (sizes count).toInt.toNat 0 (texts.drop (pieceStart sizes texts count))

/-- The counter values for which the overrun test accepts every cursor in the ring. -/
def Steady (poolSize lastTp : CInt) : Prop := -2 ^ 31 + poolSize.toInt - 1 ≤ lastTp.toInt

instance (poolSize lastTp : CInt) : Decidable (Steady poolSize lastTp) :=
  inferInstanceAs (Decidable (_ ≤ _))

theorem startTpNum_steady (ready : Ready facility pool copy exponent)
    (steady : Steady facility.tpPoolSize lastTp)
    (near : (lastTp - priv).toNat ≤ facility.tpPoolSize.toNat) :
    startTpNum facility lastTp (some priv) = (priv, false) := by
  have exact : TestExact facility.tpPoolSize lastTp priv := by
    rw [TestExact, if_pos near]
    exact steady
  rw [startTpNum, (adjustTpNum_eq_expected_iff ready.sized _ _).mpr exact, expectedStart,
    if_pos near]

/-- Away from the wrap a call takes up where the cursor points. -/
theorem Reader.call_steady {before : Facility} {reader after : Reader}
    (kept : Kept before reader.facility pool exponent) (wide : size.slt neededBufsize = false)
    (steady : Steady before.tpPoolSize before.nextTp)
    (near : (before.nextTp - reader.priv).toNat ≤ before.tpPoolSize.toNat)
    (called : reader.call build flags past size = .ok after) :
    Reader.Took reader after pool exponent size reader.priv []
      (textsFrom flags past before pool exponent reader.priv) := by
  obtain ⟨_, ready⟩ := kept.ready
  rw [← kept.poolSize, ← kept.nextTp] at steady
  rw [← kept.nextTp, ← kept.poolSize] at near
  rw [← kept.textsFrom]
  by_cases behind : reader.priv = reader.facility.nextTp
  · obtain ⟨kept, priv, text, finished⟩ := Reader.call_arrived ready wide behind called
    obtain ⟨large, _⟩ := toInt_wide wide
    have none : textsFrom flags past reader.facility pool exponent reader.priv = [] := by
      rw [textsFrom, windowFrom, behind, sub_self]
      rfl
    rw [none]
    refine ⟨kept, ?_, ?_, finished, ?_, ?_⟩
    · rw [priv]
      exact (BitVec.add_zero _).symm
    · rw [text]
      exact (List.append_nil _).symm
    · change (0 : Int) < _
      omega
    · exact fun step before => absurd before (Nat.not_lt_zero step)
  · have took := Reader.call_walk ready wide behind (startTpNum_steady ready steady near) called
    rwa [openingText_false] at took

structure Rejoined (facility : Facility) (pool : Block Tracept) (exponent : Nat) (first : CInt)
    (texts : List (Option (List UInt8))) (position : Nat) (reader : Reader) : Prop where
  kept : Kept facility reader.facility pool exponent
  within : position ≤ texts.length
  text : reader.text = joined (texts.take position)
  cursor : reader.finished = false → reader.priv = first + BitVec.ofNat 32 position
  rest : reader.finished = true → joined (texts.drop position) = []

section
variable {facility : Facility} {pool copy : Block Tracept} {exponent : Nat} {build : Build}
  {flags first : CInt} {past : Nat → List UInt8} {sizes : Nat → CInt}

theorem textsFrom_drop (flags : CInt) (past : Nat → List UInt8) (first : CInt)
    (ready : Ready facility pool copy exponent) (position : Nat)
    (within : position ≤ (facility.nextTp - first).toNat) :
    (textsFrom flags past facility pool exponent first).drop position =
      slotTexts flags facility.tpCntMask past
        (slotOf facility.tpCntMask (first + BitVec.ofNat 32 position))
        (timeAfter flags 0 ((windowFrom pool exponent facility.nextTp first).take position))
        (windowFrom pool exponent facility.nextTp (first + BitVec.ofNat 32 position)) := by
  have fits := ready.fits
  rw [textsFrom, slotTexts_drop flags past ready.mask_toNat fits, windowFrom_add fits within]

/-- The restart at a place among the slots from the cursor on. -/
def UnseenAt (flags : CInt) (facility : Facility) (pool : Block Tracept) (exponent : Nat)
    (first : CInt) (position : Nat) : Prop :=
  let cells := windowFrom pool exponent facility.nextTp first
  RestartUnseen flags (timeAfter flags 0 (cells.take position)) (cells.drop position)

theorem Rejoined.call {reader after : Reader} (ready : Ready facility pool copy exponent)
    (wide : size.slt neededBufsize = false)
    (steady : Steady facility.tpPoolSize facility.nextTp)
    (near : (facility.nextTp - first).toNat ≤ facility.tpPoolSize.toNat)
    (rejoined : Rejoined facility pool exponent first
      (textsFrom flags past facility pool exponent first) position reader)
    (going : reader.finished = false)
    (unseen : UnseenAt flags facility pool exponent first position)
    (called : reader.call build flags past size = .ok after) :
    let texts := textsFrom flags past facility pool exponent first
    let taken := slotsTaken size.toInt.toNat 0 (texts.drop position)
    Rejoined facility pool exponent first texts (position + taken) after ∧
      (taken = 0 → after.finished = true) := by
  intro texts taken
  have fits := ready.fits
  have total : texts.length = (facility.nextTp - first).toNat := textsFrom_length _ _ _ _ _ _
  have within : position ≤ (facility.nextTp - first).toNat := total ▸ rejoined.within
  have cursor := rejoined.cursor going
  have left : (facility.nextTp - reader.priv).toNat = (facility.nextTp - first).toNat - position := by
    rw [cursor, toNat_sub_add within]
  have rest : textsFrom flags past facility pool exponent reader.priv = texts.drop position := by
    have seen : RestartUnseen flags _ _ := unseen
    rw [textsFrom, cursor, textsFrom_drop flags past first ready position within,
      windowFrom_add fits within, slotTexts_unseen seen]
  have took := Reader.call_steady rejoined.kept wide steady (by omega) called
  rw [rest] at took
  have most : taken ≤ _ := slotsTaken_le size.toInt.toNat 0 (texts.drop position)
  rw [List.length_drop] at most
  refine ⟨⟨rejoined.kept.trans took.kept, by omega, ?_, ?_, ?_⟩, ?_⟩
  · rw [took.text, rejoined.text, List.take_add, joined_append]
    rfl
  · intro _
    rw [took.priv, cursor, BitVec.ofNat_add, BitVec.add_assoc]
    rfl
  · intro done
    rw [took.finished, List.isEmpty_iff] at done
    obtain ⟨large, _⟩ := toInt_wide wide
    have nothing := joined_taken_nil (by omega) done
    rw [← List.take_append_drop taken (texts.drop position), joined_append,
      List.append_eq_nil_iff, List.drop_drop] at nothing
    exact nothing.2
  · intro none
    rw [took.finished]
    have early : slotsTaken size.toInt.toNat ([] : List UInt8).length (texts.drop position) = 0 := none
    exact List.isEmpty_iff.mpr (by rw [pieceText, early]; rfl)

theorem Rejoined.stay {reader : Reader} {texts : List (Option (List UInt8))}
    (rejoined : Rejoined facility pool exponent first texts position reader)
    (finished : reader.finished = true) (size : Nat) :
    Rejoined facility pool exponent first texts
      (position + slotsTaken size 0 (texts.drop position)) reader := by
  have most := slotsTaken_le size 0 (texts.drop position)
  have within := rejoined.within
  have nothing := rejoined.rest finished
  rw [List.length_drop] at most
  rw [← List.take_append_drop (slotsTaken size 0 (texts.drop position)) (texts.drop position),
    joined_append, List.append_eq_nil_iff, List.drop_drop] at nothing
  obtain ⟨taken, later⟩ := nothing
  refine ⟨rejoined.kept, by omega, ?_, ?_, fun _ => later⟩
  · rw [rejoined.text, List.take_add, joined_append, taken, List.append_nil]
  · intro going
    rw [finished] at going
    cases going

theorem readPieces_succ {start after : Reader}
    (read : readPieces build flags past sizes start (count + 1) = .ok after) :
    ∃ before, readPieces build flags past sizes start count = .ok before ∧
      (before.finished = true ∧ after = before ∨
        before.finished = false ∧ before.call build flags past (sizes count) = .ok after) := by
  simp only [readPieces, bind, Except.bind] at read
  split at read
  · cases read
  · rename_i before reached
    refine ⟨before, reached, ?_⟩
    split at read
    · rename_i finished
      cases read
      exact .inl ⟨finished, rfl⟩
    · rename_i going
      exact .inr ⟨by simpa using going, read⟩

theorem readPieces_rejoined (ready : Ready facility pool copy exponent)
    (wide : ∀ piece, (sizes piece).slt neededBufsize = false)
    (steady : Steady facility.tpPoolSize facility.nextTp)
    (near : (facility.nextTp - first).toNat ≤ facility.tpPoolSize.toNat)
    (unseen : ∀ piece, piece < count → UnseenAt flags facility pool exponent first
      (pieceStart sizes (textsFrom flags past facility pool exponent first) piece))
    (read : readPieces build flags past sizes ⟨facility, first, [], false⟩ count = .ok reader) :
    let texts := textsFrom flags past facility pool exponent first
    Rejoined facility pool exponent first texts (pieceStart sizes texts count) reader ∧
      (reader.finished = false → count ≤ pieceStart sizes texts count) := by
  intro texts
  induction count generalizing reader with
  | zero =>
    cases read
    exact ⟨⟨.refl ready, Nat.zero_le _, rfl, fun _ => by simp [pieceStart], nofun⟩,
      fun _ => Nat.zero_le _⟩
  | succ count ih =>
    obtain ⟨before, reached, ⟨finished, rfl⟩ | ⟨going, called⟩⟩ := readPieces_succ read
    · obtain ⟨rejoined, _⟩ := ih (fun piece earlier => unseen piece (by omega)) reached
      exact ⟨rejoined.stay finished _, fun going => by rw [finished] at going; cases going⟩
    · obtain ⟨rejoined, counted⟩ := ih (fun piece earlier => unseen piece (by omega)) reached
      obtain ⟨later, progress⟩ := rejoined.call ready (wide count) steady near going
        (unseen count (by omega)) called
      refine ⟨later, fun unfinished => ?_⟩
      have before := counted going
      have some : slotsTaken (sizes count).toInt.toNat 0
          (texts.drop (pieceStart sizes texts count)) ≠ 0 := by
        intro none
        rw [progress none] at unfinished
        cases unfinished
      rw [pieceStart]
      omega

theorem Reader.call_text {reader after : Reader}
    (called : reader.call build flags past size = .ok after) :
    ∃ more, after.text = reader.text ++ more := by
  simp only [Reader.call, bind, Except.bind, pure, Except.pure] at called
  split at called
  · cases called
  · cases called
    exact ⟨_, rfl⟩

/-- Later calls only add text, and none do after one that returned 0. -/
theorem readPieces_later {start reader after : Reader} (count more : Nat)
    (read : readPieces build flags past sizes start count = .ok reader)
    (later : readPieces build flags past sizes start (count + more) = .ok after) :
    (∃ text, after.text = reader.text ++ text) ∧ (reader.finished = true → after = reader) := by
  induction more generalizing after with
  | zero =>
    rw [Nat.add_zero, read] at later
    cases later
    exact ⟨⟨[], by simp⟩, fun _ => rfl⟩
  | succ more ih =>
    obtain ⟨before, reached, ⟨_, rfl⟩ | ⟨going, called⟩⟩ := readPieces_succ later
    · exact ih reached
    · obtain ⟨⟨text, kept⟩, same⟩ := ih reached
      obtain ⟨added, longer⟩ := Reader.call_text called
      refine ⟨⟨text ++ added, by rw [longer, kept, List.append_assoc]⟩, fun finished => ?_⟩
      rw [same finished, finished] at going
      cases going

theorem restartUnseen_of_nothing {mask : CInt} {slot : Nat} {prevTime : BitVec 64}
    {cells : List Tracept} (nothing : joined (slotTexts flags mask past slot prevTime cells) = []) :
    RestartUnseen flags prevTime cells := by
  intro _
  cases found : cells.find? fun tp => tp.src.isSome with
  | none => simp [firstDiff, found]
  | some tp =>
    obtain ⟨place, text⟩ := slotTexts_first flags mask past slot found
    obtain ⟨others, whole⟩ := joined_first (slotTexts flags mask past slot prevTime cells)
    rw [nothing, text] at whole
    exact absurd (List.append_eq_nil_iff.mp whole.symm).1 (printTracePoint_ne_nil _ _ _ _)

/-- A run that ended with the whole text has not shown a restart. -/
theorem readPieces_unseen (ready : Ready facility pool copy exponent)
    (wide : ∀ piece, (sizes piece).slt neededBufsize = false)
    (steady : Steady facility.tpPoolSize facility.nextTp)
    (near : (facility.nextTp - first).toNat ≤ facility.tpPoolSize.toNat)
    (inside : ∀ count, ∃ reader,
      readPieces build flags past sizes ⟨facility, first, [], false⟩ count = .ok reader)
    (read : readPieces build flags past sizes ⟨facility, first, [], false⟩ count = .ok final)
    (finished : final.finished = true)
    (whole : final.text = joined (textsFrom flags past facility pool exponent first)) (piece : Nat) :
    UnseenAt flags facility pool exponent first
      (pieceStart sizes (textsFrom flags past facility pool exponent first) piece) := by
  have fits := ready.fits
  induction piece using Nat.strong_induction_on with
  | h piece ih =>
    obtain ⟨reader, reached⟩ := inside piece
    obtain ⟨rejoined, _⟩ := readPieces_rejoined ready wide steady near ih reached
    generalize pieceStart sizes (textsFrom flags past facility pool exponent first) piece = position
      at rejoined ⊢
    have within : position ≤ (facility.nextTp - first).toNat := by simpa using rejoined.within
    have rest := textsFrom_drop flags past first ready position within
    rw [UnseenAt, ← windowFrom_add fits within]
    cases ended : reader.finished with
    | true =>
      have nothing := rejoined.rest ended
      rw [rest] at nothing
      exact restartUnseen_of_nothing nothing
    | false =>
      obtain ⟨after, next⟩ := inside (piece + 1)
      obtain ⟨before, same, either⟩ := readPieces_succ next
      rw [reached] at same
      cases same
      obtain ⟨_, called⟩ := either.resolve_left (by simp [ended])
      have later : piece + 1 ≤ count := by
        by_contra early
        obtain ⟨more, rfl⟩ : ∃ more, piece = count + more := ⟨piece - count, by omega⟩
        obtain ⟨_, stays⟩ := readPieces_later count more read reached
        rw [stays finished, finished] at ended
        cases ended
      obtain ⟨more, rfl⟩ : ∃ more, count = piece + 1 + more := ⟨count - (piece + 1), by omega⟩
      obtain ⟨⟨text, longer⟩, _⟩ := readPieces_later (piece + 1) more next read
      have cursor := rejoined.cursor ended
      have took := Reader.call_steady rejoined.kept (wide piece) steady
        (by rw [cursor, toNat_sub_add within]; omega) called
      rw [cursor] at took
      rw [whole, took.text, rejoined.text, List.append_assoc] at longer
      nth_rewrite 1 [← List.take_append_drop position
        (textsFrom flags past facility pool exponent first)] at longer
      rw [joined_append, rest, List.append_cancel_left_eq] at longer
      obtain ⟨large, _⟩ := toInt_wide (wide piece)
      exact restart_seen (by omega) longer.symm

/-! ## A reader just below the wrap -/

theorem adjustTpNum_either (facility : Facility) (lastTp priv : CInt) :
    adjustTpNum facility lastTp priv = (priv, false) ∨
      adjustTpNum facility lastTp priv = (lastTp - facility.tpPoolSize, true) := by
  simp only [adjustTpNum]
  split_ifs
  · exact .inr rfl
  · exact .inl rfl
  · exact .inr rfl
  · exact .inl rfl

theorem adjustTpNum_unsteady (ready : Ready facility pool copy exponent)
    (unsteady : ¬ Steady facility.tpPoolSize facility.nextTp)
    (near : (facility.nextTp - priv).toNat ≤ facility.tpPoolSize.toNat) :
    adjustTpNum facility facility.nextTp priv = (facility.nextTp - facility.tpPoolSize, true) := by
  apply (adjustTpNum_either facility facility.nextTp priv).resolve_left
  intro accepted
  apply unsteady
  have exact : TestExact facility.tpPoolSize facility.nextTp priv := by
    rw [← adjustTpNum_eq_expected_iff ready.sized, accepted, expectedStart, if_pos near]
  rwa [TestExact, if_pos near] at exact

theorem Reader.call_unsteady {before : Facility} {reader after : Reader}
    (kept : Kept before reader.facility pool exponent) (wide : size.slt neededBufsize = false)
    (unsteady : ¬ Steady before.tpPoolSize before.nextTp)
    (near : (before.nextTp - reader.priv).toNat ≤ before.tpPoolSize.toNat)
    (behind : reader.priv ≠ before.nextTp)
    (called : reader.call build flags past size = .ok after) :
    Reader.Took reader after pool exponent size (before.nextTp - before.tpPoolSize)
      (openingText before pool (before.nextTp - before.tpPoolSize) true)
      (textsFrom flags past before pool exponent
        (before.nextTp - before.tpPoolSize)) := by
  obtain ⟨_, ready⟩ := kept.ready
  rw [← kept.poolSize, ← kept.nextTp] at unsteady
  rw [← kept.nextTp, ← kept.poolSize] at near
  rw [← kept.nextTp] at behind
  rw [← kept.textsFrom, ← kept.openingText, ← kept.nextTp, ← kept.poolSize]
  exact Reader.call_walk ready wide behind (adjustTpNum_unsteady ready unsteady near) called

/-- A reader that goes back with every call has arrived only by a call that took it all. -/
structure Rewound (facility : Facility) (pool : Block Tracept) (exponent : Nat)
    (opening : List UInt8) (texts : List (Option (List UInt8))) (firstSize : CInt) (count : Nat)
    (reader : Reader) : Prop where
  kept : Kept facility reader.facility pool exponent
  near : (facility.nextTp - reader.priv).toNat ≤ facility.tpPoolSize.toNat
  behind : reader.priv ≠ facility.nextTp → reader.finished = false ∧ (reader.text = [] → count = 0)
  arrived : reader.priv = facility.nextTp → ∃ before,
    reader.text = before ++ (opening ++ joined texts) ∧
      (before = [] → slotsTaken firstSize.toInt.toNat opening.length texts = texts.length)

theorem pieceText_ne_nil {size : CInt} {texts : List (Option (List UInt8))}
    (wide : size.slt neededBufsize = false) (opening : List UInt8) (some : joined texts ≠ []) :
    pieceText size opening texts ≠ [] := by
  intro none
  obtain ⟨blank, nothing⟩ := List.append_eq_nil_iff.mp none
  subst blank
  obtain ⟨large, _⟩ := toInt_wide wide
  exact some (joined_taken_nil (by omega) nothing)

theorem Rewound.call {reader after : Reader} (wide : ∀ piece, (sizes piece).slt neededBufsize = false)
    (unsteady : ¬ Steady facility.tpPoolSize facility.nextTp)
    (some : joined (textsFrom flags past facility pool exponent
      (facility.nextTp - facility.tpPoolSize)) ≠ [])
    (rewound : Rewound facility pool exponent
      (openingText facility pool (facility.nextTp - facility.tpPoolSize) true)
      (textsFrom flags past facility pool exponent (facility.nextTp - facility.tpPoolSize))
      (sizes 0) count reader)
    (called : reader.call build flags past (sizes count) = .ok after) :
    Rewound facility pool exponent
      (openingText facility pool (facility.nextTp - facility.tpPoolSize) true)
      (textsFrom flags past facility pool exponent (facility.nextTp - facility.tpPoolSize))
      (sizes 0) (count + 1) after := by
  by_cases behind : reader.priv = facility.nextTp
  · obtain ⟨_, ready⟩ := rewound.kept.ready
    obtain ⟨kept, priv, text, finished⟩ := Reader.call_arrived ready (wide count)
      (by rw [behind, rewound.kept.nextTp]) called
    refine ⟨rewound.kept.trans kept, by rw [priv]; exact rewound.near, ?_, ?_⟩
    · intro apart
      rw [priv] at apart
      exact absurd behind apart
    · intro _
      rw [text]
      exact rewound.arrived behind
  · obtain ⟨_, start⟩ := rewound.behind behind
    have took := Reader.call_unsteady rewound.kept (wide count) unsteady rewound.near behind called
    have turn : (facility.nextTp - (facility.nextTp - facility.tpPoolSize)).toNat =
        facility.tpPoolSize.toNat := by rw [sub_sub_cancel]
    have total := textsFrom_length flags past facility pool exponent
      (facility.nextTp - facility.tpPoolSize)
    have positive := pieceText_ne_nil (wide count)
      (openingText facility pool (facility.nextTp - facility.tpPoolSize) true) some
    generalize textsFrom flags past facility pool exponent
      (facility.nextTp - facility.tpPoolSize) = texts at *
    generalize openingText facility pool (facility.nextTp - facility.tpPoolSize) true = opening at *
    have most := slotsTaken_le (sizes count).toInt.toNat opening.length texts
    have left : (facility.nextTp - after.priv).toNat = facility.tpPoolSize.toNat -
        slotsTaken (sizes count).toInt.toNat opening.length texts := by
      rw [took.priv, toNat_sub_add (by omega), turn]
    refine ⟨rewound.kept.trans took.kept, by omega, ?_, ?_⟩
    · intro _
      refine ⟨by rw [took.finished]; simpa using positive, ?_⟩
      intro none
      rw [took.text] at none
      exact absurd (List.append_eq_nil_iff.mp none).2 positive
    · intro arrived
      rw [arrived, sub_self] at left
      have all : slotsTaken (sizes count).toInt.toNat opening.length texts = texts.length := by
        have zero : (0 : CInt).toNat = 0 := rfl
        omega
      refine ⟨reader.text, ?_, ?_⟩
      · rw [took.text, pieceText, all, List.take_length]
      · intro none
        rw [start none] at all
        exact all

theorem readPieces_rewound (ready : Ready facility pool copy exponent)
    (wide : ∀ piece, (sizes piece).slt neededBufsize = false)
    (unsteady : ¬ Steady facility.tpPoolSize facility.nextTp)
    (near : (facility.nextTp - first).toNat ≤ facility.tpPoolSize.toNat)
    (behind : first ≠ facility.nextTp)
    (some : joined (textsFrom flags past facility pool exponent
      (facility.nextTp - facility.tpPoolSize)) ≠ [])
    (read : readPieces build flags past sizes ⟨facility, first, [], false⟩ count = .ok reader) :
    Rewound facility pool exponent
      (openingText facility pool (facility.nextTp - facility.tpPoolSize) true)
      (textsFrom flags past facility pool exponent (facility.nextTp - facility.tpPoolSize))
      (sizes 0) count reader := by
  induction count generalizing reader with
  | zero =>
    cases read
    exact ⟨.refl ready, near, fun _ => ⟨rfl, fun _ => rfl⟩,
      fun arrived => absurd arrived behind⟩
  | succ count ih =>
    obtain ⟨before, reached, ⟨finished, rfl⟩ | ⟨_, called⟩⟩ := readPieces_succ read
    · have rewound := ih reached
      refine ⟨rewound.kept, rewound.near, ?_, rewound.arrived⟩
      intro apart
      rw [(rewound.behind apart).1] at finished
      cases finished
    · exact (ih reached).call wide unsteady some called

/-! ## The cursor at the oldest record -/

structure OldestLive (facility : Facility) (pool : Block Tracept) (exponent : Nat)
    (first : CInt) : Prop where
  within : (facility.nextTp - first).toNat ≤ facility.tpPoolSize.toNat
  behind : first ≠ facility.nextTp
  live : (pool.cell (slotOf facility.tpCntMask first)).src.isSome = true
  older : ∀ tp ∈ (windowFrom pool exponent facility.nextTp
      (facility.nextTp - facility.tpPoolSize)).take
        (facility.tpPoolSize.toNat - (facility.nextTp - first).toNat), tp.src.isNone = true

theorem slotTexts_blank {mask : CInt} {slot : Nat} {prevTime : BitVec 64} {cells : List Tracept}
    (blank : ∀ tp ∈ cells.take count, tp.src.isNone = true) :
    joined ((slotTexts flags mask past slot prevTime cells).take count) = [] ∧
      timeAfter flags prevTime (cells.take count) = prevTime := by
  induction cells generalizing slot count with
  | nil => simp [slotTexts, timeAfter]
  | cons tp rest ih =>
    cases count with
    | zero => simp [timeAfter]
    | succ count =>
      obtain ⟨first, later⟩ := List.forall_mem_cons.mp blank
      simp only [slotTexts, if_pos first, List.take_succ_cons, joined_cons, timeAfter]
      exact ih later

theorem OldestLive.first_eq (oldest : OldestLive facility pool exponent first) :
    facility.nextTp - facility.tpPoolSize +
      BitVec.ofNat 32 (facility.tpPoolSize.toNat - (facility.nextTp - first).toNat) = first := by
  have gap : BitVec.ofNat 32 (facility.tpPoolSize.toNat - (facility.nextTp - first).toNat) =
      facility.tpPoolSize - (facility.nextTp - first) := by
    have bound := facility.tpPoolSize.isLt
    apply BitVec.eq_of_toNat_eq
    rw [BitVec.toNat_sub_of_le oldest.within, BitVec.toNat_ofNat]
    exact Nat.mod_eq_of_lt (by omega)
  rw [gap, sub_add_sub_cancel, sub_sub_cancel]

theorem OldestLive.joined_eq (oldest : OldestLive facility pool exponent first)
    (ready : Ready facility pool copy exponent) :
    joined (textsFrom flags past facility pool exponent (facility.nextTp - facility.tpPoolSize)) =
      joined (textsFrom flags past facility pool exponent first) := by
  obtain ⟨nothing, time⟩ : joined (List.take _ (slotTexts flags _ past _ 0 _)) = [] ∧ _ :=
    slotTexts_blank oldest.older
  have turn : (facility.nextTp - (facility.nextTp - facility.tpPoolSize)).toNat =
      facility.tpPoolSize.toNat := by rw [sub_sub_cancel]
  have rest := textsFrom_drop flags past (facility.nextTp - facility.tpPoolSize) ready
    (facility.tpPoolSize.toNat - (facility.nextTp - first).toNat) (by omega)
  rw [oldest.first_eq, time] at rest
  rw [← List.take_append_drop (facility.tpPoolSize.toNat - (facility.nextTp - first).toNat)
    (textsFrom flags past facility pool exponent (facility.nextTp - facility.tpPoolSize)),
    joined_append, rest, textsFrom, nothing, List.nil_append, textsFrom]

theorem OldestLive.some (flags : CInt) (past : Nat → List UInt8)
    (oldest : OldestLive facility pool exponent first) (ready : Ready facility pool copy exponent) :
    joined (textsFrom flags past facility pool exponent first) ≠ [] := by
  have fits := ready.fits
  have present : ¬ (pool.cell (slotOf facility.tpCntMask first)).src.isNone = true := by
    simpa [Option.isSome_iff_ne_none] using oldest.live
  rw [textsFrom, windowFrom, toNat_sub_succ oldest.behind, ringRead_succ,
    ← slotOf_masked ready.mask_toNat, slotTexts, if_neg present, joined_cons]
  intro none
  exact printTracePoint_ne_nil _ _ _ _ (List.append_eq_nil_iff.mp none).1

/-- There is an ellipsis if the oldest record is in the oldest place. -/
theorem OldestLive.openingText_eq_nil_iff (oldest : OldestLive facility pool exponent first)
    (ready : Ready facility pool copy exponent) : 
      openingText facility pool (facility.nextTp - facility.tpPoolSize) true = [] ↔
      (facility.nextTp - first).toNat < facility.tpPoolSize.toNat := by
  have bounds := ready.sized.bounds
  constructor
  · intro none
    by_contra far
    have gap : facility.tpPoolSize.toNat - (facility.nextTp - first).toNat = 0 := by omega
    have same := oldest.first_eq
    rw [gap, BitVec.add_zero] at same
    rw [openingText, same, if_pos ⟨rfl, oldest.live⟩] at none
    cases none
  · intro near
    have older := oldest.older
    obtain ⟨gap, positive⟩ : ∃ gap,
        facility.tpPoolSize.toNat - (facility.nextTp - first).toNat = gap + 1 :=
      ⟨_, (Nat.sub_add_cancel (by omega : 1 ≤ _)).symm⟩
    rw [positive, windowFrom, toNat_sub_succ (ready.sized.oldest_apart facility.nextTp),
      ringRead_succ, List.take_succ_cons, ← slotOf_masked ready.mask_toNat] at older
    have blank := older _ List.mem_cons_self
    rw [openingText, if_neg]
    simpa [Option.isSome_iff_ne_none] using blank

theorem whole_text {whole : Printout} {after : Facility} (ready : Ready facility pool copy exponent)
    (wide : size.slt neededBufsize = false)
    (called : printTraceStack build flags true size none past facility = .ok (whole, after))
    (unstopped : whole.stopped = false) : linesText whole.out =
      joined (textsFrom flags past facility pool exponent (facility.nextTp - facility.tpPoolSize)) := by
  have start : startTpNum facility facility.nextTp none =
      (facility.nextTp - facility.tpPoolSize, false) := rfl
  obtain ⟨copied, first, _, _, opened, printout, _⟩ :=
    printTraceStack_walked ready wide (by simp) start called
  obtain ⟨done, walk⟩ := printCells_walked ⟨flags, true, size, facility.tpCntMask, past⟩
    (windowFrom pool exponent facility.nextTp (facility.nextTp - facility.tpPoolSize)) first
    opened.inside.running
  have lines := walk.out
  have blank : first.out = [] := by simpa using opened.out
  subst printout
  have all : ¬ done < _ := fun short => by
    have stopped := walk.stopped.mpr short
    rw [windowFrom] at stopped
    rw [stopped] at unstopped
    cases unstopped
  rw [List.take_of_length_le (by omega), blank, List.nil_append, opened.number, opened.slot,
    opened.fresh] at lines
  exact (congrArg linesText lines).trans (linesText_pointLines _ _ _ _ _)

/-! ## Pieces and the whole -/

/-- The text of a reader that has got a 0, against some text. -/
def ReadsAs (build : Build) (flags : CInt) (past : Nat → List UInt8) (sizes : Nat → CInt)
    (facility : Facility) (first : CInt) (text : List UInt8) : Prop :=
  ∃ count reader, readPieces build flags past sizes ⟨facility, first, [], false⟩ count = .ok reader ∧
    reader.finished = true ∧ reader.text = text

/-- Where pieces make up the whole. Away from the wrap: where no piece starts with a record
that shows a difference in the whole. Just below it, where each call goes back to the oldest
place: if that place is blank and the first buffer holds everything. -/
def PiecesFit (flags : CInt) (past : Nat → List UInt8) (sizes : Nat → CInt) (facility : Facility)
    (pool : Block Tracept) (exponent : Nat) (first : CInt) : Prop :=
  if Steady facility.tpPoolSize facility.nextTp then
    ∀ piece, UnseenAt flags facility pool exponent first
      (pieceStart sizes (textsFrom flags past facility pool exponent first) piece)
  else
    (facility.nextTp - first).toNat < facility.tpPoolSize.toNat ∧
      slotsTaken (sizes 0).toInt.toNat 0 (textsFrom flags past facility pool exponent
        (facility.nextTp - facility.tpPoolSize)) = facility.tpPoolSize.toNat

theorem readsAs_steady_iff (ready : Ready facility pool copy exponent)
    (oldest : OldestLive facility pool exponent first)
    (wide : ∀ piece, (sizes piece).slt neededBufsize = false)
    (inside : ∀ count, ∃ reader,
      readPieces build flags past sizes ⟨facility, first, [], false⟩ count = .ok reader)
    (steady : Steady facility.tpPoolSize facility.nextTp) :
    ReadsAs build flags past sizes facility first
        (joined (textsFrom flags past facility pool exponent first)) ↔
      ∀ piece, UnseenAt flags facility pool exponent first
        (pieceStart sizes (textsFrom flags past facility pool exponent first) piece) := by
  constructor
  · rintro ⟨count, reader, read, finished, whole⟩ piece
    exact readPieces_unseen ready wide steady oldest.within inside read finished whole piece
  · intro unseen
    -- every call takes a slot, so one more than there are slots must end the reading
    let texts := textsFrom flags past facility pool exponent first
    obtain ⟨reader, read⟩ := inside (texts.length + 1)
    obtain ⟨rejoined, progress⟩ := readPieces_rejoined ready wide steady oldest.within
      (fun piece _ => unseen piece) read
    cases finished : reader.finished with
    | false =>
      have far : texts.length + 1 ≤ pieceStart sizes texts (texts.length + 1) := progress finished
      have within : pieceStart sizes texts (texts.length + 1) ≤ texts.length := rejoined.within
      omega
    | true =>
      refine ⟨texts.length + 1, reader, read, finished, ?_⟩
      have nothing := rejoined.rest finished
      have whole := congrArg joined (List.take_append_drop (pieceStart sizes texts (texts.length + 1)) texts)
      rw [joined_append, nothing, List.append_nil] at whole
      exact rejoined.text.trans whole

theorem readsAs_unsteady_iff (ready : Ready facility pool copy exponent)
    (oldest : OldestLive facility pool exponent first)
    (wide : ∀ piece, (sizes piece).slt neededBufsize = false)
    (inside : ∀ count, ∃ reader,
      readPieces build flags past sizes ⟨facility, first, [], false⟩ count = .ok reader)
    (unsteady : ¬ Steady facility.tpPoolSize facility.nextTp) :
    ReadsAs build flags past sizes facility first (joined (textsFrom flags past facility pool
        exponent (facility.nextTp - facility.tpPoolSize))) ↔
      (facility.nextTp - first).toNat < facility.tpPoolSize.toNat ∧
        slotsTaken (sizes 0).toInt.toNat 0 (textsFrom flags past facility pool exponent
          (facility.nextTp - facility.tpPoolSize)) = facility.tpPoolSize.toNat := by
  have some := oldest.some flags past ready
  rw [← oldest.joined_eq ready] at some
  have total : (textsFrom flags past facility pool exponent
      (facility.nextTp - facility.tpPoolSize)).length = facility.tpPoolSize.toNat := by
    rw [textsFrom_length, sub_sub_cancel]
  have opened := oldest.openingText_eq_nil_iff ready
  constructor
  · rintro ⟨count, reader, read, finished, whole⟩
    have rewound := readPieces_rewound ready wide unsteady oldest.within oldest.behind some read
    have arrived : reader.priv = facility.nextTp := by
      by_contra apart
      rw [(rewound.behind apart).1] at finished
      cases finished
    obtain ⟨before, text, all⟩ := rewound.arrived arrived
    rw [whole, ← List.append_assoc] at text
    obtain ⟨early, blank⟩ := List.append_eq_nil_iff.mp (List.self_eq_append_left.mp text)
    have taken := all early
    rw [blank, total] at taken
    exact ⟨opened.mp blank, taken⟩
  · rintro ⟨near, taken⟩
    have blank := opened.mpr near
    obtain ⟨last, read⟩ := inside 2
    obtain ⟨middle, reached, either⟩ := readPieces_succ read
    obtain ⟨start, zero, ⟨done, _⟩ | ⟨_, called⟩⟩ := readPieces_succ reached
    · cases zero
      cases done
    · cases zero
      have took := Reader.call_unsteady (.refl ready) (wide 0) unsteady
        oldest.within oldest.behind called
      rw [blank] at took
      have piece : pieceText (sizes 0) [] (textsFrom flags past facility pool exponent
          (facility.nextTp - facility.tpPoolSize)) = joined (textsFrom flags past facility pool
            exponent (facility.nextTp - facility.tpPoolSize)) := by
        rw [pieceText, List.length_nil, taken, ← total, List.take_length]
        rfl
      have arrived : middle.priv = facility.nextTp := by
        rw [took.priv, List.length_nil, taken, BitVec.ofNat_toNat, BitVec.setWidth_eq,
          sub_add_cancel]
      obtain ⟨_, called⟩ := either.resolve_left (by
        rw [took.finished, piece]
        simp [some])
      obtain ⟨copied, readyAfter⟩ := took.kept.ready
      obtain ⟨_, _, same, finished⟩ := Reader.call_arrived readyAfter (wide 1)
        (by rw [arrived, took.kept.nextTp]) called
      exact ⟨2, last, read, finished, by rw [same, took.text, piece]; rfl⟩

end

/-- A reader that starts at the oldest record gets, piece by piece, the text of a single
call exactly where its pieces fit. -/
theorem pieces_read_whole_iff (build : Build) (flags size first : CInt) (past : Nat → List UInt8)
    (sizes : Nat → CInt) (ready : Ready facility pool copy exponent)
    (oldest : OldestLive facility pool exponent first)
    (wides : ∀ piece, (sizes piece).slt neededBufsize = false)
    (inside : ∀ count, ∃ reader,
      readPieces build flags past sizes ⟨facility, first, [], false⟩ count = .ok reader)
    (wide : size.slt neededBufsize = false)
    (called : printTraceStack build flags true size none past facility = .ok (whole, after))
    (unstopped : whole.stopped = false) :
    ReadsAs build flags past sizes facility first (linesText whole.out) ↔
      PiecesFit flags past sizes facility pool exponent first := by
  rw [whole_text ready wide called unstopped, PiecesFit]
  split
  · rename_i steady
    rw [oldest.joined_eq ready]
    exact readsAs_steady_iff ready oldest wides inside steady
  · rename_i unsteady
    exact readsAs_unsteady_iff ready oldest wides inside unsteady

/-- Two records one and a half seconds apart in a pool of four. -/
def twoPool : Block Tracept where
  capacity := recordsIn (poolMemSize 4)
  cell
    | 0 => ⟨⟨1, 0⟩, 1, some ⟨[99], by decide⟩, Tracept.zero.msg⟩
    | 1 => ⟨⟨2, 500000⟩, 2, some ⟨[100], by decide⟩, Tracept.zero.msg⟩
    | _ => Tracept.zero

def twoFacility : Facility :=
  { Facility.granted .cxx11 1 4 with tpPool := some twoPool, nextTp := 2 }

theorem twoFacility_ready :
    Ready twoFacility twoPool ⟨recordsIn (poolMemSize 4), fun _ => Tracept.zero⟩ 2 :=
  ⟨by decide, by decide, by decide, by decide, rfl, rfl, rfl, rfl, rfl, rfl⟩

theorem twoFacility_oldest : OldestLive twoFacility twoPool 2 0 :=
  ⟨by decide, by decide, by decide, by decide⟩

theorem readPieces_reached {start after : Reader} (count more : Nat)
    (read : readPieces build flags past sizes start (count + more) = .ok after) :
    ∃ reader, readPieces build flags past sizes start count = .ok reader := by
  induction more generalizing after with
  | zero => exact ⟨after, read⟩
  | succ more ih =>
    obtain ⟨before, reached, _⟩ := readPieces_succ read
    exact ih reached

theorem readPieces_stays {start reader : Reader} (count more : Nat)
    (read : readPieces build flags past sizes start count = .ok reader)
    (finished : reader.finished = true) :
    readPieces build flags past sizes start (count + more) = .ok reader := by
  induction more with
  | zero => exact read
  | succ more ih => simp [readPieces, ih, bind, Except.bind, finished, pure, Except.pure]

theorem readPieces_inside {start reader : Reader}
    (read : readPieces build flags past sizes start last = .ok reader)
    (finished : reader.finished = true) (count : Nat) :
    ∃ other, readPieces build flags past sizes start count = .ok other := by
  rcases Nat.le_total count last with early | late
  · exact readPieces_reached count (last - count) (by rwa [Nat.add_sub_cancel' early])
  · exact ⟨reader, Nat.add_sub_cancel' late ▸ readPieces_stays last (count - last) read finished⟩

private theorem twoFacility_inside {flags : CInt} (asked : flags = 0x02 ∨ flags = 0x09) (count : Nat) :
    ∃ reader, readPieces .cxx11 flags (fun _ => []) (fun _ => 260) ⟨twoFacility, 0, [], false⟩ count =
      .ok reader := by
  have ends : (readPieces .cxx11 flags (fun _ => []) (fun _ => 260)
      ⟨twoFacility, 0, [], false⟩ 3).toOption.map Reader.finished = some true := by
    rcases asked with rfl | rfl <;> decide +kernel
  cases read : readPieces .cxx11 flags (fun _ => []) (fun _ => 260) ⟨twoFacility, 0, [], false⟩ 3 with
  | error fault =>
    rw [read] at ends
    cases ends
  | ok reader =>
    rw [read] at ends
    exact readPieces_inside read (Option.some.inj ends) count

private theorem twoFacility_whole {flags : CInt} (asked : flags = 0x02 ∨ flags = 0x09) :
    ∃ whole after, printTraceStack .cxx11 flags true 1000 none (fun _ => []) twoFacility =
      .ok (whole, after) ∧ whole.stopped = false := by
  have ends : (printTraceStack .cxx11 flags true 1000 none (fun _ => [])
      twoFacility).toOption.map (fun result => result.1.stopped) = some false := by
    rcases asked with rfl | rfl <;> decide +kernel
  cases called : printTraceStack .cxx11 flags true 1000 none (fun _ => []) twoFacility with
  | error fault =>
    rw [called] at ends
    cases ends
  | ok result =>
    rw [called] at ends
    exact ⟨result.1, result.2, rfl, Option.some.inj ends⟩

/-- With `RT_PRINT_DIFF` the second piece shows a difference of 0 where the whole shows the
one and a half seconds. -/
theorem pieces_lose_difference : ∃ whole after,
    printTraceStack .cxx11 0x02 true 1000 none (fun _ => []) twoFacility = .ok (whole, after) ∧
      whole.stopped = false ∧ OldestLive twoFacility twoPool 2 0 ∧
      (∀ count, ∃ reader, readPieces .cxx11 0x02 (fun _ => []) (fun _ => 260)
        ⟨twoFacility, 0, [], false⟩ count = .ok reader) ∧
      ¬ ReadsAs .cxx11 0x02 (fun _ => []) (fun _ => 260) twoFacility 0 (linesText whole.out) := by
  obtain ⟨whole, after, called, unstopped⟩ := twoFacility_whole (.inl rfl)
  refine ⟨whole, after, called, unstopped, twoFacility_oldest, twoFacility_inside (.inl rfl), ?_⟩
  rw [whole_text twoFacility_ready (by decide) called unstopped,
    twoFacility_oldest.joined_eq twoFacility_ready,
    readsAs_steady_iff twoFacility_ready twoFacility_oldest (fun _ => by decide)
      (twoFacility_inside (.inl rfl)) (by decide)]
  intro unseen
  have second : RestartUnseen _ _ _ := unseen 1
  revert second
  decide +kernel

/-- With the time column instead the pieces are the whole. -/
theorem pieces_read_whole_times : ∃ whole after,
    printTraceStack .cxx11 0x09 true 1000 none (fun _ => []) twoFacility = .ok (whole, after) ∧
      ReadsAs .cxx11 0x09 (fun _ => []) (fun _ => 260) twoFacility 0 (linesText whole.out) := by
  obtain ⟨whole, after, called, unstopped⟩ := twoFacility_whole (.inr rfl)
  refine ⟨whole, after, called, ?_⟩
  apply (pieces_read_whole_iff .cxx11 0x09 1000 0 (fun _ => []) (fun _ => 260) twoFacility_ready
    twoFacility_oldest (fun _ => by decide) (twoFacility_inside (.inr rfl)) (by decide) called
    unstopped).mpr
  rw [PiecesFit, if_pos (by decide)]
  intro _ wanted
  exact absurd wanted (by decide)

end TrippingRobot.Runtrace
