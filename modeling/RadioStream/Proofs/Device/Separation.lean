import RadioStream.Proofs.Device.Run

/-!
Modules of a device do not interfere. A step for a module reads and writes that module and
nothing else of the device, and a call of the board reads and writes no module. Two devices
that agree on a module therefore go on agreeing on it, with the same answers, as long as the
steps for it are the same; what is done for other modules and to the board does not matter.
-/
namespace RadioStream

namespace DeviceEvent

/-- What a step does to the module that it is for, and what that answers. -/
def serve (e : DeviceEvent) (m : RfModule) : Answer × RfModule :=
  match e with
  | .setup _ config monitor => (.done (m.setup config monitor).1, (m.setup config monitor).2)
  | .start _ => (.done m.start.1, m.start.2)
  | .stop _ => (.done m.stop.1, m.stop.2)
  | @DeviceEvent.receive _ _ _ channel buffer info =>
    (.delivery (m.receive channel buffer info).1, (m.receive channel buffer info).2)
  | @DeviceEvent.receiveDuring _ _ _ channel buffer info meanwhile =>
    let waited := m.receiveDuring channel buffer info meanwhile.apply
    (.both (.delivery waited.1) (.done waited.2.1), waited.2.2)
  | @DeviceEvent.transmit _ _ _ channel samples info =>
    (.count (m.transmit channel samples info).1, (m.transmit channel samples info).2)
  | @DeviceEvent.transmitUntilStop _ _ _ channel samples info =>
    let waited := m.transmitUntilStop channel samples info
    (.both (.count waited.1) (.done waited.2.1), waited.2.2)
  | .status _ channel direction =>
    (.snapshot (m.status channel direction).1, (m.status channel direction).2)
  | .phase _ => (.phase (.ok m.concluded.phase), m.concluded)
  | .takeSnapshots _ => (.snapshots (.ok m.snapshots), m.clearSnapshots)
  | .settle _ => (.silent, m.settle)
  | .single _ e => (.silent, m.step e)
  | .link _ call => ((call.apply m.link).1, { m with link := (call.apply m.link).2 })
  | .board _ => (.silent, m)

/-- What a step answers where the module that it is for does not exist. -/
def absent : DeviceEvent → Answer
  | .setup index .. | .start index | .stop index => .done (.error (.invalidModule index))
  | @DeviceEvent.receive _ _ index _ buffer info
  | @DeviceEvent.receiveDuring _ _ index _ buffer info _ =>
    .delivery ⟨.error (.invalidModule index), buffer, info⟩
  | @DeviceEvent.transmit _ _ index _ _ _
  | @DeviceEvent.transmitUntilStop _ _ index _ _ _ => .count (.error (.invalidModule index))
  | .status index .. => .snapshot (.error (.invalidModule index))
  | .phase index => .phase (.error (.invalidModule index))
  | .takeSnapshots index => .snapshots (.error (.invalidModule index))
  | .link .. => .noLink
  | .settle _ | .single .. | .board _ => .silent

end DeviceEvent

namespace Device
variable {d d' : Device} {e : DeviceEvent} {index : UInt8}

theorem module?_cases (d : Device) (index : UInt8) :
    (∃ m, d.module? index = .ok m) ∨ d.module? index = .error (.invalidModule index) := by
  rw [module?]
  cases d.modules[index.toNat]? with
  | none => exact .inr rfl
  | some m => exact .inl ⟨m, rfl⟩

theorem module?_putModule_self {m : RfModule} (there : d.module? index = .ok m) (n : RfModule) :
    (d.putModule index n).module? index = .ok n := by
  unfold module? at there
  split at there
  · next found =>
    obtain ⟨inside, _⟩ := List.getElem?_eq_some_iff.mp found
    rw [module?, putModule, List.getElem?_set_self inside]
  · contradiction

theorem module?_putModule_other {other : UInt8} (differs : other ≠ index) (n : RfModule) :
    (d.putModule other n).module? index = d.module? index := by
  have places : other.toNat ≠ index.toNat := fun same => differs (UInt8.toNat_inj.mp same)
  rw [module?, putModule, List.getElem?_set_ne places]
  rfl

theorem told_onModule {α : Type} (d : Device) (index : UInt8) (tell : Except Fault α → Answer)
    (call : RfModule → Except Fault α × RfModule) :
    told tell (d.onModule index call) =
      d.onModule? index (tell (.error (.invalidModule index)))
        fun m => (tell (call m).1, (call m).2) := by
  rw [onModule, onModule?]
  rcases d.module?_cases index with ⟨m, there⟩ | absent
  · rw [there]
    rfl
  · rw [absent]
    rfl

/-- A step for a module answers by the module alone and replaces nothing else; where there is no
such module, it leaves the device as it is. -/
theorem step_eq_onModule? (own : e.module? = some index) (d : Device) :
    d.step e = d.onModule? index e.absent e.serve := by
  cases e with
  | setup i config monitor =>
    obtain rfl := Option.some.inj own
    exact d.told_onModule i .done (·.setup config monitor)
  | start i =>
    obtain rfl := Option.some.inj own
    exact d.told_onModule i .done (·.start)
  | stop i =>
    obtain rfl := Option.some.inj own
    exact d.told_onModule i .done (·.stop)
  | receive i channel buffer info =>
    obtain rfl := Option.some.inj own
    rw [step, Device.receive, onModule?]
    rcases d.module?_cases i with ⟨m, there⟩ | absent
    · rw [there]
      rfl
    · rw [absent]
      rfl
  | transmit i channel samples info =>
    obtain rfl := Option.some.inj own
    exact d.told_onModule i .count (·.transmit channel samples info)
  | status i channel direction =>
    obtain rfl := Option.some.inj own
    exact d.told_onModule i .snapshot (·.status channel direction)
  | phase i =>
    obtain rfl := Option.some.inj own
    exact d.told_onModule i .phase fun m => (.ok m.concluded.phase, m.concluded)
  | takeSnapshots i =>
    obtain rfl := Option.some.inj own
    exact d.told_onModule i .snapshots fun m => (.ok m.snapshots, m.clearSnapshots)
  | settle i =>
    obtain rfl := Option.some.inj own
    rw [step, Device.settle, onModule?]
    rcases d.module?_cases i with ⟨m, there⟩ | absent
    · rw [there]
      rfl
    · rw [absent]
      rfl
  | receiveDuring i channel buffer info meanwhile =>
    obtain rfl := Option.some.inj own
    rfl
  | transmitUntilStop i channel samples info =>
    obtain rfl := Option.some.inj own
    rfl
  | single i e =>
    obtain rfl := Option.some.inj own
    rfl
  | link i call =>
    obtain rfl := Option.some.inj own
    rfl
  | board call => contradiction

/-- A call of the board leaves all modules as they are. -/
theorem boardStep_modules (d : Device) (call : BoardCall) :
    (d.boardStep call).2.modules = d.modules := by
  have kept (change : Board → Except Fault Board) : (d.onBoard change).2.modules = d.modules := by
    rw [onBoard]
    split <;> rfl
  cases call with
  | configure index config => exact kept _
  | setClock index clock frequency channel => exact kept _
  | reset | enableCache _ | writeParameters _ => exact kept _
  | clock _ _ _ | readParameters _ => rfl

theorem onModule?_other {other : UInt8} (differs : other ≠ index) (absent : Answer)
    (call : RfModule → Answer × RfModule) :
    (d.onModule? other absent call).2.module? index = d.module? index := by
  rw [onModule?]
  split
  · rfl
  · exact module?_putModule_other differs _

/-- A step that is not for a module leaves it as it is. -/
theorem step_other (other : e.module? ≠ some index) :
    (d.step e).2.module? index = d.module? index := by
  cases whose : e.module? with
  | some i =>
    rw [step_eq_onModule? whose]
    apply onModule?_other
    rintro rfl
    exact other whose
  | none =>
    cases e with
    | board call =>
      rw [module?, step, boardStep_modules]
      rfl
    | _ => contradiction

/-- A step for a module answers and does the same on devices that agree on the module. -/
theorem step_agree (own : e.module? = some index) (agree : d.module? index = d'.module? index) :
    (d.step e).1 = (d'.step e).1 ∧
      (d.step e).2.module? index = (d'.step e).2.module? index := by
  rw [step_eq_onModule? own, step_eq_onModule? own, onModule?, onModule?]
  rcases d.module?_cases index with ⟨m, there⟩ | missing
  · have there' := agree.symm.trans there
    rw [there, there']
    exact ⟨rfl, (module?_putModule_self there _).trans (module?_putModule_self there' _).symm⟩
  · have missing' := agree.symm.trans missing
    rw [missing, missing']
    exact ⟨rfl, agree⟩

/-- What other modules a device has, in which states, and what its board holds makes no difference
to a module: a run is for it the same as the steps for it alone on a device that agrees on it. -/
theorem run_own (events : List DeviceEvent) (agree : d.module? index = d'.module? index) :
    let own := events.filter (·.module? = some index)
    (d.run events).module? index = (d'.run own).module? index ∧
      answersTo index d events = answersTo index d' own := by
  dsimp only
  induction events generalizing d d' with
  | nil => exact ⟨agree, rfl⟩
  | cons e rest ih =>
    by_cases own : e.module? = some index
    · obtain ⟨answer, agree⟩ := step_agree own agree
      obtain ⟨module_eq, answers⟩ := ih agree
      rw [List.filter_cons_of_pos (by simpa using own), answersTo, answersTo, if_pos own,
        if_pos own, answer, answers]
      exact ⟨module_eq, rfl⟩
    · rw [List.filter_cons_of_neg (by simpa using own), answersTo, if_neg own]
      exact ih ((step_other own).trans agree)

/-- Modules do not interfere: after any steps of a device, a module is as it is after those of
them alone that are for it, and these have the same answers. -/
theorem modules_separate (d : Device) (index : UInt8) (events : List DeviceEvent) :
    let own := events.filter (·.module? = some index)
    (d.run events).module? index = (d.run own).module? index ∧
      answersTo index d events = answersTo index d own :=
  run_own events rfl

end Device
end RadioStream
