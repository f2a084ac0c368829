import RadioStream.Proofs.Transmission.Gate

/-!
What a step leaves of a transmit lane, but for the stop flag of its queue: the batch in hand,
the tail at which the hardware expects more, and the counters. Only a pass moves the hand and the
tail, and its end is one function of the lane and of what it ships.
-/
namespace RadioStream

namespace TxLane

/-- A lane without its stop flag. -/
def unstopped (l : TxLane) : TxLane := { l with queue := { l.queue with stopped := false } }

@[simp] theorem channel_unstopped (l : TxLane) : l.unstopped.channel = l.channel := rfl
@[simp] theorem held_unstopped (l : TxLane) : l.unstopped.held = l.held := rfl
@[simp] theorem tail_unstopped (l : TxLane) : l.unstopped.tail = l.tail := rfl
@[simp] theorem traffic_unstopped (l : TxLane) : l.unstopped.traffic = l.traffic := rfl

theorem unstopped_settleTail (l : TxLane) (now : Tick) :
    (l.settleTail now).unstopped = l.unstopped.settleTail now := by
  unfold settleTail
  cases tail : l.tail with
  | none => simp [tail]
  | some finish =>
    have queue : l.unstopped.queue.isEmpty = l.queue.isEmpty := rfl
    simp only [tail_unstopped, tail, held_unstopped, queue]
    split <;> rfl

/-- Without a tail there is nothing to run out of. -/
theorem settleTail_of_none {l : TxLane} (ended : l.tail = none) (now : Tick) :
    l.settleTail now = l := by
  simp [settleTail, ended]

/-- What no caller changes of a lane: its hand, its tail, and of its counters all but the one of
late transfers. -/
structure Rests (l l' : TxLane) : Prop where
  held_eq : l'.held = l.held
  tail_eq : l'.tail = l.tail
  traffic_eq : l'.traffic = l.traffic ∨ l'.traffic = l.traffic.countLate

theorem Rests.refl (l : TxLane) : l.Rests l := ⟨rfl, rfl, .inl rfl⟩

theorem Rests.underrun_eq {l l' : TxLane} (rests : l.Rests l') :
    l'.traffic.underrun = l.traffic.underrun := by
  rcases rests.traffic_eq with same | late
  · rw [same]
  · rw [late]
    rfl

theorem rests_of_unstopped {l l' : TxLane} (same : l'.unstopped = l.unstopped) : l.Rests l' := by
  have held := congrArg TxLane.held same
  have tail := congrArg TxLane.tail same
  have traffic := congrArg TxLane.traffic same
  exact ⟨held, tail, .inl traffic⟩

end TxLane

namespace TxPass

/-- What the end of a pass makes of a lane and its shipment: after an accepted write the shipment
is counted, and unless the write was refused the tail is settled. -/
def settled (p : TxPass) (outcome : Option (Except Fault Unit)) (x : TxLane × Option Shipment) :
    TxLane :=
  match outcome with
  | some (.error _) => x.1
  | some (.ok ()) => (x.2.elim x.1 x.1.shipped).settleTail p.now
  | none => x.1.settleTail p.now

theorem settled_of_none {x : TxLane × Option Shipment} (ended : x.1.tail = none) (p : TxPass)
    (outcome : Option (Except Fault Unit)) : (p.settled outcome x).tail = none ∧
      (p.settled outcome x).traffic.underrun = x.1.traffic.underrun := by
  rcases outcome with _ | (reason | ⟨⟩)
  · simp [settled, TxLane.settleTail_of_none ended, ended]
  · simp [settled, ended]
  · rw [settled]
    cases x.2 with
    | none => simp [TxLane.settleTail_of_none ended, ended]
    | some shipment =>
      have shipped : (x.1.shipped shipment).tail = none := ended
      simp only [Option.elim, TxLane.settleTail_of_none shipped]
      exact ⟨shipped, rfl⟩

theorem settled_channel (p : TxPass) (outcome : Option (Except Fault Unit))
    (x : TxLane × Option Shipment) : (p.settled outcome x).channel = x.1.channel := by
  have settle (l : TxLane) : (l.settleTail p.now).channel = l.channel := by
    have core := congrArg TxLane.channel (l.core_settleTail p.now)
    exact core
  rcases outcome with _ | (reason | ⟨⟩)
  · exact settle x.1
  · rfl
  · rw [settled, settle]
    cases x.2 <;> rfl

theorem settled_held (p : TxPass) (outcome : Option (Except Fault Unit))
    (x : TxLane × Option Shipment) : (p.settled outcome x).held = x.1.held := by
  have settle (l : TxLane) : (l.settleTail p.now).held = l.held := by
    have core := congrArg TxLane.held (l.core_settleTail p.now)
    exact core
  rcases outcome with _ | (reason | ⟨⟩)
  · exact settle x.1
  · rfl
  · rw [settled, settle]
    cases x.2 <;> rfl

end TxPass

namespace Session
variable {s t : Session} {channel : UInt8}

theorem halt_unstopped (s : Session) (reason : Option Fault) :
    (s.halt reason).tx.map TxLane.unstopped = s.tx.map TxLane.unstopped := by
  rw [halt_eq]
  split
  · rfl
  · simp only [List.map_map]
    rfl

theorem report_unstopped (s : Session) (shown : Snapshot) :
    (s.report shown).tx.map TxLane.unstopped = s.tx.map TxLane.unstopped := by
  rw [report]
  split
  · rfl
  · dsimp only
    split
    · rfl
    · exact halt_unstopped _ _

theorem accept_unstopped (s : Session) (p : RxPacket) :
    (s.accept p).tx.map TxLane.unstopped = s.tx.map TxLane.unstopped := by
  rw [accept]
  split
  · rfl
  · dsimp only
    split
    · exact report_unstopped _ _
    · rfl

/-- Lanes that are the same but for their stop flags are found in the same places. -/
theorem txOn_unstopped (same : t.tx.map TxLane.unstopped = s.tx.map TxLane.unstopped)
    (channel : UInt8) :
    (t.txOn channel).map TxLane.unstopped = (s.txOn channel).map TxLane.unstopped := by
  have found := congrArg (List.find? (·.channel == channel)) same
  rwa [List.find?_map, List.find?_map] at found

theorem rests_of_unstopped (same : t.tx.map TxLane.unstopped = s.tx.map TxLane.unstopped)
    {l : TxLane} (found : s.txOn channel = some l) :
    ∃ l', t.txOn channel = some l' ∧ l.Rests l' := by
  have there := txOn_unstopped same channel
  rw [found, Option.map_some, Option.map_eq_some_iff] at there
  obtain ⟨l', on, same⟩ := there
  exact ⟨l', on, TxLane.rests_of_unstopped same⟩

theorem rests_putTx {old lane : TxLane} (same : t.tx = s.tx) (found : s.txOn channel = some old)
    (on : lane.channel = old.channel) (rests : old.Rests lane) {other : UInt8} {l : TxLane}
    (there : s.txOn other = some l) :
    ∃ l', (t.putTx lane).txOn other = some l' ∧ l.Rests l' := by
  obtain rfl := on.trans (channel_of_txOn found)
  have stands : t.txOn lane.channel = some old := by rw [txOn, same]; exact found
  rw [txOn_putTx stands]
  split
  · next here =>
    obtain rfl := Option.some.inj ((here ▸ found).symm.trans there)
    exact ⟨lane, rfl, rests⟩
  · exact ⟨l, by rw [txOn, same]; exact there, .refl l⟩

end Session

namespace TxPass

theorem finish_unstopped (p : TxPass) (outcome : Option (Except Fault Unit)) :
    (p.finish outcome).tx.map TxLane.unstopped =
      p.lanes.map fun x => (p.settled outcome x).unstopped := by
  have settles (lanes lanes' : List TxLane)
      (same : lanes.map TxLane.unstopped = lanes'.map TxLane.unstopped) :
      (lanes.map fun lane => lane.settleTail p.now).map TxLane.unstopped =
        (lanes'.map fun lane => lane.settleTail p.now).map TxLane.unstopped := by
    have settled := congrArg (List.map fun lane : TxLane => lane.settleTail p.now) same
    simpa only [List.map_map, Function.comp_def, TxLane.unstopped_settleTail] using settled
  have reported (shipments : List (TxLane × Shipment)) (s : Session) :
      (shipments.foldl (fun s x => s.report ((x.1.shipped x.2).snapshot s.timeline.current))
        s).tx.map TxLane.unstopped = s.tx.map TxLane.unstopped := by
    induction shipments generalizing s with
    | nil => rfl
    | cons first rest ih => rw [List.foldl_cons, ih, Session.report_unstopped]
  rcases outcome with _ | (reason | ⟨⟩)
  · simp [finish, settled, kept]
  · rw [finish, Session.halt_unstopped]
    simp [settled, kept]
  · rw [finish]
    refine (settles _ _ (reported p.shipments _)).trans ?_
    simp only [counted, List.map_map]
    apply List.map_congr_left
    rintro ⟨lane, _ | shipment⟩ _ <;> rfl

end TxPass

namespace Session
variable {s : Session} {channel : UInt8}

/-- All that a pass does to a lane: it picks up a batch if its hand is empty and lets none go,
drops the one in hand, or ships it; then it settles. -/
theorem pass_cases {l : TxLane} (found : s.txOn channel = some l) (reading : Except Fault Tick)
    (draining : Bool) (answer : Except Fault Unit) :
    let now := (s.timeline.now reading).1
    let timeline := (s.timeline.now reading).2
    let p := s.beginPass reading draining
    let picked := l.pickUp s.config.txBatch draining (timeline.isDue · now)
    ∃ l' x, (s.pass reading draining answer).txOn channel = some l' ∧
      l'.unstopped =
        (p.settled (if p.packets.isEmpty then none else some answer) x).unstopped ∧
      p.lanes.find? (·.1.channel == channel) = some x ∧
      ((x = (picked, none) ∧ s.departed reading draining channel = []) ∨
        (∃ b, picked.held = some b ∧
          x = ({ picked with held := none, traffic := picked.traffic.countLate }, none) ∧
          s.departed reading draining channel = [⟨b, now, none⟩]) ∨
        (∃ b, picked.held = some b ∧
          x = ({ picked with
              held := none, tail := if b.timed && !b.flush then some b.finish else none },
            some ⟨b.timed, b.packetize channel s.config.txPacket⟩) ∧
          s.departed reading draining channel =
            [⟨b, now, some (b.packetize channel s.config.txPacket)⟩])) := by
  intro now timeline p picked
  have lanes := s.lanes_on reading draining channel
  rw [s.loaded_on, found, Option.map_some, Option.map_some] at lanes
  have same : (·.channel == channel) ∘ (fun x => (p.settled (if p.packets.isEmpty then none
      else some answer) x).unstopped) = fun x => x.1.channel == channel := by
    funext x
    simp only [Function.comp, TxLane.channel_unstopped, TxPass.settled_channel]
  have there := congrArg (List.find? (·.channel == channel))
    (p.finish_unstopped (if p.packets.isEmpty then none else some answer))
  rw [List.find?_map, List.find?_map, same, lanes, Option.map_some] at there
  obtain ⟨l', on, settled⟩ := Option.map_eq_some_iff.mp there
  refine ⟨l', _, on, settled, lanes, ?_⟩
  have departed := departed_on found reading draining
  have on : picked.channel = channel :=
    (TxLane.pickUp_channel ..).trans (channel_of_txOn found)
  rcases picked.depart_cases (s.passGate reading draining) (timeline.isLate · now)
    s.config.txPacket with ⟨stays, departs⟩ | ⟨b, held, leaves, timed, late, departs⟩ |
      ⟨b, held, leaves, inTime, departs⟩
  · refine .inl ⟨departs, ?_⟩
    rw [departed, if_neg (Bool.eq_false_iff.mp stays), Option.toList_none]
  · refine .inr (.inl ⟨b, held, departs, ?_⟩)
    rw [departed, if_pos leaves, held, Option.map_some, timed, late]
    rfl
  · refine .inr (.inr ⟨b, held, on ▸ departs, ?_⟩)
    rw [departed, if_pos leaves, held, Option.map_some, inTime, channel_of_txOn found]
    rfl

end Session
namespace World
variable {w : World} {channel : UInt8}

/-- No step but a pass moves the hand or the tail of a lane. -/
theorem step_rests {l : TxLane} (found : w.session.txOn channel = some l) {e : Event}
    (noPass : ∀ reading draining answer, e ≠ .pass reading draining answer) :
    ∃ l', (w.step e).session.txOn channel = some l' ∧ l.Rests l' := by
  cases e with
  | transmit on samples info reading wait =>
    obtain ⟨timeline, _, _, effect⟩ := w.session.transmit_cases on samples info reading wait
    have same : ({ w.session with timeline := timeline } : Session).tx = w.session.tx := rfl
    dsimp only [step] at effect ⊢
    rcases effect with ⟨after, _⟩ | ⟨lane, there, ⟨_, _, after⟩ | ⟨_, after⟩ | ⟨_, after⟩⟩ <;>
      rw [after]
    · exact ⟨l, found, .refl l⟩
    · refine Session.rests_putTx same there ?_ ?_ found
      · rfl
      · exact ⟨rfl, rfl, .inr rfl⟩
    · refine Session.rests_putTx same there ?_ ?_ found
      · rfl
      · exact ⟨rfl, rfl, .inl rfl⟩
    · refine Session.rests_putTx same there ?_ ?_ found
      · rfl
      · exact ⟨rfl, rfl, .inl rfl⟩
  | resume place =>
    rw [step]
    split
    · exact ⟨l, found, .refl l⟩
    · dsimp only [Session.resume]
      split
      · exact ⟨l, found, .refl l⟩
      · next lane there =>
        refine Session.rests_putTx rfl (Session.txLane?_eq_ok.mp there) ?_ ?_ found
        · rfl
        · exact ⟨rfl, rfl, .inl rfl⟩
  | receive on buffer info wait =>
    have same := w.session.receive_tx on buffer info wait
    exact ⟨l, by rw [step, Session.txOn, same]; exact found, .refl l⟩
  | arrive packet => exact Session.rests_of_unstopped (w.session.accept_unstopped packet) found
  | pass reading draining answer => exact absurd rfl (noPass reading draining answer)
  | halt reason => exact Session.rests_of_unstopped (w.session.halt_unstopped reason) found

end World
end RadioStream
