import TrippingRobot.Runtrace.ReadQueue

/-! A process that reads the device over and over, sleeping in between, while others make
tracepoints: as long as it is not overtaken it gets every line, once and in order. -/

namespace TrippingRobot.Runtrace

open TrippingRobot.Data TrippingRobot.Machine

namespace ReadQueue

/-- How many tracepoints a process has not got yet. Its cursor moves at the end of a print. -/
def lag (queue : ReadQueue) (number : Nat) : Nat :=
  (queue.nextTp - (queue.calls number).file.cursor).toNat

/-- These tracepoints. -/
def unread (queue : ReadQueue) (number : Nat) : List Request :=
  recent (queue.lag number) queue.requests

/-- How many of the tracepoints lie before its cursor. -/
def place (queue : ReadQueue) (number : Nat) : Nat := queue.requests.length - queue.lag number

/-- The lines of the tracepoints from one place to another. -/
def linesBetween (queue : ReadQueue) (first last : Nat) : List UInt8 :=
  ((queue.requests.take last).drop first).flatMap Request.deviceLine

/-- Nothing overtakes the process: no tracepoint is made while a whole pool waits for it, no
reconfiguration clears the pool, and its print starts from a steady counter. -/
def KeepsUp (number : Nat) (queue : ReadQueue) : ReadQueueAction → Prop
  | .record _ _ _ => queue.lag number < queue.device.facility.tpPoolSize.toNat
  | .step other _ _ => other = number → (queue.calls number).stage = .copied →
    Steady queue.device.facility.tpPoolSize (queue.calls number).lastTp
  | .reconfigure _ _ _ => False
  | _ => True

instance (number : Nat) (queue : ReadQueue) :
    ∀ action, Decidable (queue.KeepsUp number action)
  | .record _ _ _ => inferInstanceAs (Decidable (_ < _))
  | .step _ _ _ => inferInstanceAs (Decidable (_ → _ → _))
  | .reconfigure _ _ _ => isFalse id
  | .wakeUp _ | .read _ _ | .write _ _ _ => isTrue trivial

end ReadQueue

/-- How many tracepoints a print has to show. -/
def ReadCall.ahead (call : ReadCall) : Nat := (call.lastTp - call.file.cursor).toNat

namespace ReadQueue

/-- A follower past the lock: whoever copied last, the copy holds what the print has to show,
and the loop has printed the first of it. -/
structure Underway (facility : Facility) (unread : List Request) (call : ReadCall) : Prop where
  since : call.ahead ≤ unread.length
  holds : ∀ copy, facility.tpPoolCopy = some copy → List.Forall₂ Stores
    (ringRead copy.cell facility.tpPoolSize.toNat call.file.cursor.toNat call.ahead)
    (unread.take call.ahead)
  walked : call.stage = .walking → ∃ done, done ≤ call.ahead ∧
    call.loop.tpNum = call.file.cursor + BitVec.ofNat 32 done ∧
    call.loop.tp = call.loop.tpNum.toNat % facility.tpPoolSize.toNat ∧
    linesText call.loop.out = (unread.take done).flatMap Request.deviceLine

/-- The process has what was made between its place at the start and its place now. -/
structure Follows (origin : ReadQueue) (number : Nat) (queue : ReadQueue) : Prop where
  sound : queue.Sound
  grown : origin.requests <+: queue.requests
  near : queue.lag number ≤ queue.device.facility.tpPoolSize.toNat
  within : queue.lag number ≤ queue.requests.length
  forward : origin.place number ≤ queue.place number
  text : (queue.calls number).text = (origin.calls number).text ++
    queue.linesBetween (origin.place number) (queue.place number)
  underway : (queue.calls number).InPrint →
    Underway queue.device.facility (queue.unread number) (queue.calls number)

variable {origin queue after : ReadQueue} {number : Nat}

theorem place_le (queue : ReadQueue) (number : Nat) : queue.place number ≤ queue.requests.length :=
  Nat.sub_le _ _

theorem Follows.unread_length (follows : Follows origin number queue) :
    (queue.unread number).length = queue.lag number := by
  have within := follows.within
  rw [unread, recent_length]
  omega

theorem Follows.start (sound : queue.Sound)
    (near : queue.lag number ≤ queue.device.facility.tpPoolSize.toNat)
    (within : queue.lag number ≤ queue.requests.length)
    (away : ¬ (queue.calls number).InPrint) : Follows queue number queue := by
  refine ⟨sound, List.prefix_refl _, near, within, le_rfl, ?_, fun printing => absurd printing away⟩
  rw [linesBetween, List.drop_eq_nil_of_le (by simp), List.flatMap_nil, List.append_nil]

theorem Follows.still (follows : Follows origin number queue) (sound : after.Sound)
    (requests : after.requests = queue.requests) (nextTp : after.nextTp = queue.nextTp)
    (poolSize : after.device.facility.tpPoolSize = queue.device.facility.tpPoolSize)
    (file : (after.calls number).file = (queue.calls number).file)
    (text : (after.calls number).text = (queue.calls number).text)
    (underway : (after.calls number).InPrint →
      Underway after.device.facility (queue.unread number) (after.calls number)) :
    Follows origin number after := by
  have lag : after.lag number = queue.lag number := by rw [ReadQueue.lag, ReadQueue.lag, nextTp, file]
  have place : after.place number = queue.place number := by
    rw [ReadQueue.place, ReadQueue.place, lag, requests]
  refine ⟨sound, requests ▸ follows.grown, ?_, ?_, ?_, ?_, ?_⟩
  · rw [lag, poolSize]
    exact follows.near
  · rw [lag, requests]
    exact follows.within
  · rw [place]
    exact follows.forward
  · rw [text, follows.text, place, linesBetween, linesBetween, requests]
  · rw [ReadQueue.unread, lag, requests]
    exact underway

theorem Follows.own (follows : Follows origin number queue) {call : ReadCall}
    (sound : (queue.setCall number call).Sound) (file : call.file = (queue.calls number).file)
    (text : call.text = (queue.calls number).text)
    (underway : call.InPrint → Underway queue.device.facility (queue.unread number) call) :
    Follows origin number (queue.setCall number call) := by
  have here : (queue.setCall number call).calls number = call := by rw [setCall_calls, if_pos rfl]
  refine follows.still sound rfl rfl rfl (here.symm ▸ file) (here.symm ▸ text) ?_
  rw [here]
  exact underway

theorem Follows.elsewhere (follows : Follows origin number queue) {other : Nat} {call : ReadCall}
    (apart : number ≠ other) (sound : (queue.setCall other call).Sound) :
    Follows origin number (queue.setCall other call) := by
  have here : (queue.setCall other call).calls number = queue.calls number := by
    rw [setCall_calls, if_neg apart]
  refine follows.still sound rfl rfl rfl (congrArg ReadCall.file here)
    (congrArg ReadCall.text here) ?_
  rw [here]
  exact follows.underway

theorem Underway.grow {facility after : Facility} {unread more : List Request} {call : ReadCall}
    (underway : Underway facility unread call) (copyIs : after.tpPoolCopy = facility.tpPoolCopy)
    (poolSize : after.tpPoolSize = facility.tpPoolSize) :
    Underway after (unread ++ more) call := by
  have since := underway.since
  refine ⟨since.trans (by simp), fun copy found => ?_, fun walking => ?_⟩
  · rw [copyIs] at found
    rw [poolSize, List.take_append_of_le_length since]
    exact underway.holds copy found
  · obtain ⟨done, most, number, slot, text⟩ := underway.walked walking
    refine ⟨done, most, number, poolSize ▸ slot, ?_⟩
    rw [List.take_append_of_le_length (most.trans since)]
    exact text

theorem Follows.record (follows : Follows origin number queue) (sound : after.Sound)
    (requests : after.requests = queue.requests ++ [request])
    (nextTp : after.nextTp = queue.nextTp + 1)
    (poolSize : after.device.facility.tpPoolSize = queue.device.facility.tpPoolSize)
    (copyIs : after.device.facility.tpPoolCopy = queue.device.facility.tpPoolCopy)
    (calls : after.calls number = queue.calls number)
    (room : queue.lag number < queue.device.facility.tpPoolSize.toNat) :
    Follows origin number after := by
  have lag : after.lag number = queue.lag number + 1 := by
    rw [ReadQueue.lag, calls, nextTp]
    unfold ReadQueue.lag at room ⊢
    bv_omega
  have place : after.place number = queue.place number := by
    rw [ReadQueue.place, ReadQueue.place, lag, requests, List.length_append, List.length_singleton]
    omega
  have unread : after.unread number = queue.unread number ++ [request] := by
    rw [ReadQueue.unread, ReadQueue.unread, recent, recent, lag, requests, List.length_append,
      List.length_singleton, Nat.add_sub_add_right, List.drop_append_of_le_length (Nat.sub_le _ _)]
  have within := follows.within
  refine ⟨sound, requests ▸ follows.grown.trans (List.prefix_append _ _), ?_, ?_, ?_, ?_, ?_⟩
  · rw [lag, poolSize]
    exact room
  · rw [lag, requests, List.length_append, List.length_singleton]
    omega
  · rw [place]
    exact follows.forward
  · rw [calls, follows.text, place, linesBetween, linesBetween, requests,
      List.take_append_of_le_length (queue.place_le number)]
  · rw [unread, calls]
    exact fun printing => (follows.underway printing).grow copyIs poolSize

/-- As nothing has overtaken it, any copy holds the tracepoints it has not got yet. -/
theorem Follows.copy_holds (follows : Follows origin number queue) {copied : Block Tracept}
    (locked : lockedCopy queue.device.facility = .ok (queue.nextTp, copied,
      { queue.device.facility with tpPoolCopy := some copied }))
    (fewer : count ≤ queue.lag number) :
    List.Forall₂ Stores (ringRead copied.cell queue.device.facility.tpPoolSize.toNat
      (queue.calls number).file.cursor.toNat count) ((queue.unread number).take count) := by
  obtain ⟨pool, copy, exponent, stored, remembers⟩ := follows.sound.remembers
  obtain ⟨block, locks, _, agree⟩ := remembers.locked
  cases locks.symm.trans locked
  exact remembers.newest_copied agree follows.near follows.within fewer

theorem Follows.copied (follows : Follows origin number queue) {copied : Block Tracept}
    (locked : lockedCopy queue.device.facility = .ok (queue.nextTp, copied,
      { queue.device.facility with tpPoolCopy := some copied })) :
    Follows origin number
      (queue.withFacility { queue.device.facility with tpPoolCopy := some copied }) := by
  refine follows.still (follows.sound.copied locked).1 rfl rfl rfl rfl rfl fun printing => ?_
  have underway := follows.underway printing
  refine ⟨underway.since, ?_, underway.walked⟩
  rintro _ ⟨⟩
  exact follows.copy_holds locked (follows.unread_length ▸ underway.since)

/-- One iteration prints the next of what the print has to show, or stops. -/
theorem Underway.iteration {facility : Facility} {unread : List Request} {call : ReadCall}
    {copy : Block Tracept} (underway : Underway facility unread call)
    (ready : Ready facility pool copy exponent) (walking : call.stage = .walking)
    (apart : call.loop.tpNum ≠ call.lastTp) (past : Nat → List UInt8) :
    Underway facility unread { call with
      loop := printIteration (call.printArgs facility.tpCntMask past) call.loop
        (copy.cell call.loop.tp) } := by
  obtain ⟨done, most, number, slot, text⟩ := underway.walked walking
  refine ⟨underway.since, underway.holds, fun _ => ?_⟩
  have fits := ready.fits
  have size := ready.poolSize
  have more : done < call.ahead := by
    refine lt_of_le_of_ne most fun all => apart ?_
    rw [number, all, ReadCall.ahead, BitVec.ofNat_toNat, BitVec.setWidth_eq, add_sub_cancel]
  have inside : done < unread.length := more.trans_le underway.since
  have stores : Stores (copy.cell call.loop.tp) unread[done] := by
    have small : (BitVec.ofNat 32 done).toNat = done := by
      have bound := (call.lastTp - call.file.cursor).isLt
      rw [BitVec.toNat_ofNat, Nat.mod_eq_of_lt (more.trans bound)]
    have found := (underway.holds copy ready.copyIs).get
      (by rwa [ringRead_length] : done < _) (by simpa using ⟨more, inside⟩)
    rw [List.get_eq_getElem, List.get_eq_getElem, ringRead_getElem, List.getElem_take] at found
    rwa [slot, number, size, toNat_add_mod _ _ fits, small, ← size]
  have plain : (call.printArgs facility.tpCntMask past).flags = rtPrintDefault := rfl
  rcases stores.iteration plain call.loop with stop | ⟨next, onward, line⟩
  · rw [stop]
    exact ⟨done, most, number, slot, text⟩
  · refine ⟨done + 1, more, ?_, ?_, ?_⟩
    · rw [next, number, BitVec.ofNat_add, ← add_assoc]
      rfl
    · rw [onward, next, slot, size]
      exact nextSlot_eq _ ready.mask_toNat fits
    · rw [line, text, List.take_add_one, List.getElem?_eq_getElem inside, List.flatMap_append]
      simp

/-- The end of a print takes the next lines. -/
theorem Follows.print (follows : Follows origin number queue) (sound : after.Sound)
    (requests : after.requests = queue.requests) (nextTp : after.nextTp = queue.nextTp)
    (poolSize : after.device.facility.tpPoolSize = queue.device.facility.tpPoolSize)
    (taken : Nat) (most : taken ≤ queue.lag number)
    (cursor : (after.calls number).file.cursor =
      (queue.calls number).file.cursor + BitVec.ofNat 32 taken)
    (text : (after.calls number).text = (queue.calls number).text ++
      ((queue.unread number).take taken).flatMap Request.deviceLine)
    (away : ¬ (after.calls number).InPrint) :
    Follows origin number after := by
  have lag : after.lag number = queue.lag number - taken := by
    rw [ReadQueue.lag, cursor, nextTp]
    exact toNat_sub_add most
  have within := follows.within
  have place : after.place number = queue.place number + taken := by
    rw [ReadQueue.place, ReadQueue.place, lag, requests]
    omega
  have forward := follows.forward
  refine ⟨sound, requests ▸ follows.grown, ?_, ?_, ?_, ?_, fun printing => absurd printing away⟩
  · rw [lag, poolSize]
    exact Nat.le_trans (Nat.sub_le _ _) follows.near
  · rw [lag, requests]
    omega
  · rw [place]
    omega
  · have slice : (queue.requests.take (queue.place number + taken)).drop (origin.place number) =
        (queue.requests.take (queue.place number)).drop (origin.place number) ++
          (queue.unread number).take taken := by
      rw [List.take_add, List.drop_append_of_le_length]
      · rfl
      · rw [List.length_take]
        exact Nat.le_min.mpr ⟨forward, Nat.le_trans forward (queue.place_le number)⟩
    rw [text, follows.text, place, linesBetween, linesBetween, requests, slice, List.flatMap_append,
      List.append_assoc]

theorem Follows.step (follows : Follows origin number queue) (other : Nat) (signal : Bool)
    (past : Nat → List UInt8)
    (steady : other = number → (queue.calls number).stage = .copied →
      Steady queue.device.facility.tpPoolSize (queue.calls number).lastTp) :
    Follows origin number (queue.step other signal past) := by
  have sound := follows.sound.step other signal past
  have stepOf := follows.sound.stepOf other signal past
  obtain ⟨pool, copy, exponent, stored, holds⟩ := follows.sound.remembers
  generalize queue.step other signal past = after at sound stepOf
  by_cases own : number = other
  · subst own
    cases stepOf with
    | stays => exact follows
    | goes woken apart calm =>
      exact follows.own sound rfl rfl fun printing => absurd printing (ReadCall.not_inPrint apart)
    | copies printing locked =>
      refine (follows.copied locked).own sound rfl rfl fun _ =>
        ⟨follows.unread_length.ge, ?_, nofun⟩
      rintro _ ⟨⟩
      exact follows.copy_holds locked le_rfl
    | opens copied start opened =>
      have underway := follows.underway (.inl copied)
      have near : (queue.calls number).ahead ≤ queue.device.facility.tpPoolSize.toNat :=
        underway.since.trans (follows.unread_length.trans_le follows.near)
      rw [startTpNum_steady holds.ready (steady rfl copied) near] at start
      cases start
      refine follows.own sound rfl rfl fun _ => ⟨underway.since, underway.holds, fun _ => ?_⟩
      refine ⟨0, Nat.zero_le _, ?_, ?_, ?_⟩
      · exact opened.number.trans (BitVec.add_zero _).symm
      · rw [opened.slot, opened.number, holds.ready.poolSize]
        exact holds.ready.slotOf_eq _
      · rw [opened.out]
        rfl
    | @reads copied walking apart running copyIs =>
      obtain rfl : copy = copied := Option.some.inj (holds.ready.copyIs.symm.trans copyIs)
      exact follows.own sound rfl rfl fun _ =>
        (follows.underway (.inr walking)).iteration holds.ready walking apart past
    | ends walking apart awake =>
      have underway := follows.underway (.inr walking)
      obtain ⟨taken, most, cursor, _, text⟩ := underway.walked walking
      refine follows.print sound rfl rfl rfl taken
        (most.trans (underway.since.trans_eq follows.unread_length)) ?_ ?_ ?_
      · rw [setCall_calls, if_pos rfl, File.cursor_setCursor, cursor]
      · rw [setCall_calls, if_pos rfl, text]
      · rw [setCall_calls, if_pos rfl]
        exact ReadCall.not_inPrint apart
  · cases stepOf with
    | stays => exact follows
    | copies printing locked => exact (follows.copied locked).elsewhere own sound
    | goes | opens | reads | ends => exact follows.elsewhere own sound

theorem Follows.next (follows : Follows origin number queue) {action : ReadQueueAction}
    (enabled : readQueueSystem.enabled queue action) (keepsUp : queue.KeepsUp number action) :
    Follows origin number (readQueueSystem.next queue action) := by
  have sound := follows.sound.next enabled
  rw [follows.sound.next_eq] at sound ⊢
  cases action with
  | record maker answers request =>
    obtain ⟨pool, copy, exponent, stored, holds⟩ := follows.sound.remembers
    obtain ⟨pool, stored, recorded, -⟩ := holds.recorded answers request enabled.2.1
    simp only [ReadQueue.next, recorded] at sound ⊢
    exact follows.record sound rfl rfl rfl rfl rfl keepsUp
  | wakeUp maker =>
    have same : (queue.calls number).wake.file = (queue.calls number).file ∧
        (queue.calls number).wake.text = (queue.calls number).text := by
      rw [ReadCall.wake]
      split
      · exact ⟨rfl, rfl⟩
      · exact ⟨rfl, rfl⟩
    refine follows.still sound rfl rfl rfl same.1 same.2 fun printing => ?_
    have before := (queue.calls number).wake_inPrint.mp printing
    simp only [ReadQueue.next, ReadCall.wake_of_inPrint before]
    exact follows.underway before
  | read reader count =>
    by_cases own : number = reader
    · subst own
      exact follows.own sound rfl rfl fun printing =>
        absurd printing (ReadCall.not_inPrint (by simp))
    · exact follows.elsewhere own sound
  | step other signal past => exact follows.step other signal past keepsUp
  | write stale past buf =>
    have same := cdevWrite_facility stale past buf queue.device
    refine follows.still sound rfl (congrArg Facility.nextTp same)
      (congrArg Facility.tpPoolSize same) rfl rfl fun printing => ?_
    simp only [ReadQueue.next, same]
    exact follows.underway printing
  | reconfigure answers threads size => exact keepsUp.elim

/-- From any state that is reached with the process outside of a print, one that keeps up gets
the lines from its place on, each once and in order, and has all of them when it sleeps and no
wakeup is on its way. -/
theorem follower_gets_all (idle : queue.Idle) (before : readQueueSystem.Legal queue earlier) :
    let origin := readQueueSystem.exec queue earlier
    origin.lag number ≤ origin.device.facility.tpPoolSize.toNat →
    origin.lag number ≤ origin.requests.length →
    ¬ (origin.calls number).InPrint →
    readQueueSystem.Legal origin actions →
    readQueueSystem.Guarded (KeepsUp number) origin actions →
    let last := readQueueSystem.exec origin actions
    origin.requests <+: last.requests ∧
      origin.place number ≤ last.place number ∧
      (last.calls number).text = (origin.calls number).text ++
        last.linesBetween (origin.place number) (last.place number) ∧
      ((last.calls number).Asleep → (∀ maker, last.waking maker = false) →
        last.place number = last.requests.length) := by
  intro origin near within away legal keepsUp last
  have follows : Follows origin number last :=
    (System.Always.of_invariant (.start (idle.sound.exec before) near within away)
      (fun _ _ follows step => follows.next step.1 step.2) (legal.and keepsUp)).last
  refine ⟨follows.grown, follows.forward, follows.text, fun asleep calm => ?_⟩
  rcases follows.sound.awake number asleep with arrived | ⟨maker, waking⟩
  · have none : last.lag number = 0 := by
      rw [lag, arrived, sub_self]
      rfl
    rw [place, none, Nat.sub_zero]
  · cases (calm maker).symm.trans waking

end ReadQueue

def otherStep : ReadQueueAction := .step 1 false fun _ => []

/-- The sleeper is woken and takes its copy. Before its loop another tracepoint is made, and
another reader takes a copy. Then it reads on until it falls asleep again. -/
def followerActions : List ReadQueueAction :=
  sleeperActions ++ .wakeUp 7 :: (List.replicate 5 ownStep ++
    .record 7 (.granting 4) plainRequest :: .read 1 4096 :: otherStep :: otherStep ::
      (List.replicate 3 ownStep ++ .wakeUp 7 :: .read 0 4096 :: (List.replicate 5 ownStep ++
        .read 0 4096 :: List.replicate 5 ownStep)))

theorem followerActions_legal : readQueueSystem.Legal quietQueue followerActions := by
  refine (System.guarded_append _ _).mpr ⟨sleeperActions_legal, rfl, ?_⟩
  iterate 5 refine ⟨.inl (by decide +kernel), ?_⟩
  refine ⟨⟨rfl, plainRequest_fits⟩, .inl (by decide +kernel), ?_⟩
  iterate 5 refine ⟨.inl (by decide +kernel), ?_⟩
  refine ⟨rfl, .inr ⟨BitVec.ofNat 64 plainRequest.deviceLine.length, by decide +kernel⟩, ?_⟩
  iterate 5 refine ⟨.inl (by decide +kernel), ?_⟩
  refine ⟨.inr ⟨BitVec.ofNat 64 plainRequest.deviceLine.length, by decide +kernel⟩, ?_⟩
  iterate 5 refine ⟨.inl (by decide +kernel), ?_⟩
  trivial

theorem follower_gets_all_two :
    ((readQueueSystem.exec quietQueue followerActions).calls 0).Asleep ∧
      ((readQueueSystem.exec quietQueue followerActions).calls 0).text =
        plainRequest.deviceLine ++ plainRequest.deviceLine := by
  have asleep : ((readQueueSystem.exec quietQueue followerActions).calls 0).Asleep := by
    decide +kernel
  have calm (maker : Nat) : (readQueueSystem.exec quietQueue followerActions).waking maker = false := by
    by_cases same : maker = 7
    · rw [same]
      decide +kernel
    · have others := fun (waking : Nat → Bool) (value : Bool) =>
        Function.update_of_ne same value waking
      exact (others _ _).trans ((others _ _).trans ((others _ _).trans (others _ _)))
  have start : readQueueSystem.Legal quietQueue [] := trivial
  obtain ⟨_, _, text, all⟩ := ReadQueue.follower_gets_all quietQueue_idle start
    (by decide +kernel : quietQueue.lag 0 ≤ _) (by decide +kernel) (by decide +kernel)
    followerActions_legal (by decide +kernel)
  rw [all asleep calm] at text
  exact ⟨asleep, text.trans (by decide +kernel)⟩

end TrippingRobot.Runtrace
