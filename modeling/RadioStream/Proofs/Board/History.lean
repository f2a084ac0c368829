import RadioStream.Proofs.Board.Configuration
import RadioStream.Proofs.Device.Separation

/-!
What a simulated board reads back. A board is compared with the list of the calls that it got: a
clock and a configuration read as what the last call behind the last reset wrote to them, a
control value as what was last written at all. A call is told to have written by its arguments
and the modules there are, not by what the board stored.
-/
namespace RadioStream

namespace BoardCall

def isReset : BoardCall → Bool
  | reset => true
  | _ => false

/-- What a call writes to a clock on a board whose modules have the given channels. -/
def clockValue? (counts : List UInt8) (module : UInt8) (clock : Clock) (channel : UInt8) :
    BoardCall → Option Double
  | configure index config =>
    if index = module ∧ config.Fits counts index then config.clockValue? clock channel else none
  | setClock index set frequency on =>
    if (index = module ∧ set = clock ∧ (clock.isShared = true ∨ on = channel)) ∧
        index.toNat < counts.length ∧ clock.isReadOnly = false then some frequency
    else none
  | _ => none

/-- The configuration that a call applies to a module. -/
def config? (counts : List UInt8) (module : UInt8) : BoardCall → Option RadioConfig
  | configure index config =>
    if index = module ∧ config.Fits counts index then some config else none
  | _ => none

/-- The control value that a call writes under an id, the last one if there are several. -/
def parameter? (id : UInt8) : BoardCall → Option BoardParameter
  | writeParameters parameters => parameters.reverse.find? fun p => p.id = id
  | _ => none

/-- What the last of the calls that wrote anything wrote. -/
def last? {α : Type} (written? : BoardCall → Option α) (calls : List BoardCall) : Option α :=
  calls.reverse.findSome? written?

/-- The calls behind the last reset. -/
def sinceReset (calls : List BoardCall) : List BoardCall :=
  (calls.reverse.takeWhile fun call => !call.isReset).reverse

variable {α : Type} {written? : BoardCall → Option α}

@[simp] theorem last?_concat (calls : List BoardCall) (call : BoardCall) :
    last? written? (calls ++ [call]) = (written? call).or (last? written? calls) := by
  rw [last?, List.reverse_concat, List.findSome?_cons]
  cases written? call <;> rfl

@[simp] theorem sinceReset_concat (calls : List BoardCall) (call : BoardCall) :
    sinceReset (calls ++ [call]) = if call.isReset then [] else sinceReset calls ++ [call] := by
  rw [sinceReset, List.reverse_concat, List.takeWhile_cons]
  cases call.isReset <;> simp [sinceReset]

end BoardCall

namespace Board
variable {counts : List UInt8} {b : Board} {before calls : List BoardCall}

/-- A call on the board, with what it makes of it unless it fails. -/
def call (b : Board) : BoardCall → Except Fault Board
  | .configure index config => b.configure index config
  | .setClock index clock frequency channel => b.setClockFrequency index clock frequency channel
  | .reset => .ok b.reset
  | .enableCache enabled => .ok (b.enableCache enabled)
  | .writeParameters parameters => b.writeParameters parameters
  | .clock .. | .readParameters _ => .ok b

/-- The board behind a call, the same as before if the call fails. -/
def step (b : Board) (call : BoardCall) : Board :=
  match b.call call with
  | .ok next => next
  | .error _ => b

def run (b : Board) (calls : List BoardCall) : Board := calls.foldl step b

/-- What a clock should read after the calls. -/
def reading (counts : List UInt8) (calls : List BoardCall) (module : UInt8) (clock : Clock)
    (channel : UInt8) : Double :=
  let last? (clock : Clock) : Option Double :=
    BoardCall.last? (·.clockValue? counts module clock channel) (BoardCall.sinceReset calls)
  match clock with
  | .reference => (last? .reference).getD Limits.referenceClock
  | .rxTsp | .txTsp => ((last? .cgen).getD .zero).div (.ofNat 4)
  | clock => (last? clock).getD .zero

/-- What the stores of a board hold behind a list of calls. -/
structure Holds (counts : List UInt8) (calls : List BoardCall) (b : Board) : Prop where
  modules : b.description.modules.map (·.channelCount) = counts
  clocks : ∀ module clock channel, b.clocks.get? (.of module clock channel) =
    BoardCall.last? (·.clockValue? counts module clock channel) (BoardCall.sinceReset calls)
  configs : ∀ module, b.configs.get? module =
    BoardCall.last? (·.config? counts module) (BoardCall.sinceReset calls)
  parameters : ∀ id, b.parameters.get? id = BoardCall.last? (·.parameter? id) calls
  hasParameters : b.hasParameters = true

theorem holds_simulated (counts : List UInt8) : Holds counts [] (simulated counts true) := by
  refine ⟨?_, fun _ _ _ => rfl, fun _ => rfl, fun _ => rfl, rfl⟩
  refine List.ext_getElem? fun i => ?_
  rw [List.getElem?_map, simulated, describe, List.getElem?_mapIdx, Option.map_map]
  exact congrFun Option.map_id counts[i]?

theorem Holds.module? (holds : Holds counts calls b) (index : UInt8) :
    (∃ description, b.module? index = .ok description ∧
      counts[index.toNat]? = some description.channelCount) ∨
    (b.module? index = .error (.invalidModule index) ∧ counts[index.toNat]? = none) := by
  rw [← holds.modules, List.getElem?_map, Board.module?]
  cases b.description.modules[index.toNat]? with
  | none => exact .inr ⟨rfl, rfl⟩
  | some description => exact .inl ⟨description, rfl, rfl⟩

/-- The outcome of a configuration: all of it is stored, or it is refused for a reason. -/
theorem Holds.configure_cases (holds : Holds counts calls b) (index : UInt8)
    (config : RadioConfig) :
    (config.Fits counts index ∧ b.configure index config = .ok { b with
      clocks := (clockWrites index config).foldl (fun t w => t.put w.1 w.2) b.clocks
      configs := b.configs.put index config }) ∨
    ∃ fault, b.configure index config = .error fault ∧ config.Refused counts index fault := by
  rw [configure]
  rcases holds.module? index with ⟨description, there, found⟩ | ⟨absent, none⟩
  · rw [there]
    simp only [bind, Except.bind]
    split
    · next i c outside =>
      obtain ⟨place, active, past, first⟩ := RadioConfig.find?_activeChannels.mp outside
      exact .inr ⟨_, rfl, .outside found place active past first⟩
    · next inside =>
      exact .inl ⟨⟨_, found, RadioConfig.find?_activeChannels_none.mp inside⟩, rfl⟩
  · rw [absent]
    exact .inr ⟨_, rfl, .unknown none⟩

/-- The outcome of setting a clock, which there must be and which must not follow another. -/
theorem Holds.setClockFrequency_cases (holds : Holds counts calls b) (index : UInt8)
    (clock : Clock) (frequency : Double) (channel : UInt8) :
    (index.toNat < counts.length ∧ clock.isReadOnly = false ∧
      b.setClockFrequency index clock frequency channel =
        .ok { b with clocks := b.clocks.put (.of index clock channel) frequency }) ∨
    (¬index.toNat < counts.length ∧
      b.setClockFrequency index clock frequency channel = .error (.invalidModule index)) ∨
    (index.toNat < counts.length ∧ clock.isReadOnly = true ∧
      b.setClockFrequency index clock frequency channel =
        .error (.invalidConfig (.readOnlyClock clock))) := by
  rw [setClockFrequency]
  rcases holds.module? index with ⟨description, there, found⟩ | ⟨absent, none⟩
  · obtain ⟨inside, _⟩ := List.getElem?_eq_some_iff.mp found
    rw [there]
    cases readOnly : clock.isReadOnly with
    | true => exact .inr (.inr ⟨inside, rfl, rfl⟩)
    | false => exact .inl ⟨inside, rfl, rfl⟩
  · rw [absent]
    exact .inr (.inl ⟨Nat.not_lt.mpr (List.getElem?_eq_none_iff.mp none), rfl⟩)

/-- A call that is no reset leaves behind what it writes, and of all else what was there. -/
theorem Holds.extend (holds : Holds counts calls b) {call : BoardCall} {c : Board}
    (lasting : call.isReset = false) (description : c.description = b.description)
    (hasParameters : c.hasParameters = b.hasParameters)
    (clocks : ∀ module clock channel, c.clocks.get? (.of module clock channel) =
      (call.clockValue? counts module clock channel).or
        (b.clocks.get? (.of module clock channel)))
    (configs : ∀ module, c.configs.get? module =
      (call.config? counts module).or (b.configs.get? module))
    (parameters : ∀ id, c.parameters.get? id = (call.parameter? id).or (b.parameters.get? id)) :
    Holds counts (calls ++ [call]) c := by
  have since : BoardCall.sinceReset (calls ++ [call]) = BoardCall.sinceReset calls ++ [call] := by
    rw [BoardCall.sinceReset_concat, lasting, if_neg Bool.false_ne_true]
  refine ⟨description ▸ holds.modules, ?_, ?_, ?_, hasParameters ▸ holds.hasParameters⟩
  · intro module clock channel
    rw [clocks, since, BoardCall.last?_concat, holds.clocks]
  · intro module
    rw [configs, since, BoardCall.last?_concat, holds.configs]
  · intro id
    rw [parameters, BoardCall.last?_concat, holds.parameters]

theorem Holds.step (holds : Holds counts calls b) (call : BoardCall) :
    Holds counts (calls ++ [call]) (b.step call) := by
  rw [Board.step]
  cases call with
  | configure index config =>
    rw [Board.call]
    rcases holds.configure_cases index config with ⟨fits, stored⟩ | ⟨reason, failed, refused⟩
    · rw [stored]
      refine holds.extend rfl rfl rfl (fun module clock channel => ?_) (fun module => ?_)
        fun _ => rfl
      · rw [Table.get?_foldl_put, fits.clockWrites_last]
        simp only [BoardCall.clockValue?, fits, and_true]
      · rw [Table.get?_put]
        simp only [BoardCall.config?, fits, and_true]
        split <;> rfl
    · rw [failed]
      have unfit := refused.not_fits
      refine holds.extend rfl rfl rfl (fun _ _ _ => ?_) (fun _ => ?_) fun _ => rfl
      · simp [BoardCall.clockValue?, unfit]
      · simp [BoardCall.config?, unfit]
  | setClock index clock frequency channel =>
    rw [Board.call]
    rcases holds.setClockFrequency_cases index clock frequency channel with
      ⟨inside, free, stored⟩ | ⟨past, failed⟩ | ⟨_, fixed, failed⟩
    · rw [stored]
      refine holds.extend rfl rfl rfl (fun module other on => ?_) (fun _ => rfl) fun _ => rfl
      rw [Table.get?_put, BoardCall.clockValue?]
      by_cases same : ClockAddress.of index clock channel = .of module other on
      · obtain ⟨rfl, rfl, on⟩ := ClockAddress.of_eq_iff.mp same
        rw [if_pos same, if_pos ⟨⟨rfl, rfl, on⟩, inside, free⟩, Option.some_or]
      · rw [if_neg same, if_neg, Option.none_or]
        rintro ⟨⟨rfl, rfl, on⟩, _⟩
        exact same (ClockAddress.of_eq_iff.mpr ⟨rfl, rfl, on⟩)
    · rw [failed]
      refine holds.extend rfl rfl rfl (fun module other on => ?_) (fun _ => rfl) fun _ => rfl
      simp [BoardCall.clockValue?, past]
    · rw [failed]
      refine holds.extend rfl rfl rfl (fun module other on => ?_) (fun _ => rfl) fun _ => rfl
      rw [BoardCall.clockValue?, if_neg, Option.none_or]
      rintro ⟨⟨_, rfl, _⟩, _, free⟩
      rw [fixed] at free
      contradiction
  | reset =>
    have nothing : BoardCall.sinceReset (calls ++ [.reset]) = [] := BoardCall.sinceReset_concat _ _
    refine ⟨holds.modules, fun _ _ _ => ?_, fun _ => ?_, fun id => ?_, holds.hasParameters⟩
    · rw [nothing]
      rfl
    · rw [nothing]
      rfl
    · rw [BoardCall.last?_concat]
      exact holds.parameters id
  | writeParameters parameters =>
    rw [Board.call, Board.writeParameters, if_pos holds.hasParameters]
    refine holds.extend rfl rfl rfl (fun _ _ _ => rfl) (fun _ => rfl) fun id => ?_
    rw [Table.get?_foldl_put BoardParameter.id fun p => p, BoardCall.parameter?,
      ← List.findSome?_guard]
    congr 2
    funext p
    simp [Option.guard]
  | enableCache _ | clock _ _ _ | readParameters _ =>
    exact holds.extend rfl rfl rfl (fun _ _ _ => rfl) (fun _ => rfl) fun _ => rfl

theorem Holds.run (holds : Holds counts before b) (calls : List BoardCall) :
    Holds counts (before ++ calls) (b.run calls) := by
  induction calls generalizing before b with
  | nil => rwa [List.append_nil]
  | cons call rest ih =>
    have later := ih (holds.step call)
    rwa [List.append_assoc, List.singleton_append] at later

theorem Holds.clockFrequency (holds : Holds counts calls b) (module : UInt8) (clock : Clock)
    (channel : UInt8) : b.clockFrequency module clock channel =
      if module.toNat < counts.length then .ok (reading counts calls module clock channel)
      else .error (.invalidModule module) := by
  have stored (clock : Clock) (unset : Double) : b.storedClock module clock channel unset =
      (BoardCall.last? (·.clockValue? counts module clock channel)
        (BoardCall.sinceReset calls)).getD unset := by
    rw [storedClock, holds.clocks]
  have reference (unset : Double) : b.storedClock module .reference 0 unset =
    b.storedClock module .reference channel unset := rfl
  have cgen (unset : Double) : b.storedClock module .cgen 0 unset =
    b.storedClock module .cgen channel unset := rfl
  unfold Board.clockFrequency
  rcases holds.module? module with ⟨description, there, found⟩ | ⟨absent, none⟩
  · obtain ⟨inside, _⟩ := List.getElem?_eq_some_iff.mp found
    rw [there, if_pos inside]
    cases clock <;> simp only [bind, Except.bind, pure, Except.pure, reference, cgen, stored,
      reading]
  · rw [absent, if_neg (Nat.not_lt.mpr (List.getElem?_eq_none_iff.mp none))]
    rfl

/-- All ids are found, or the first one is named that is not. -/
theorem mapM_found {look : UInt8 → Option BoardParameter}
    {read : UInt8 → Except Fault BoardParameter}
    (reads : ∀ id, read id = match look id with
      | some p => .ok p
      | none => .error (.parameterNeverWritten id)) (ids : List UInt8) :
    (∃ found, ids.mapM read = .ok found ∧ ids.map look = found.map some) ∨
    ∃ front id back, ids = front ++ id :: back ∧ (∀ earlier ∈ front, look earlier ≠ none) ∧
      look id = none ∧ ids.mapM read = .error (.parameterNeverWritten id) := by
  induction ids with
  | nil => exact .inl ⟨[], rfl, rfl⟩
  | cons id rest ih =>
    have first := reads id
    rw [List.mapM_cons]
    cases here : look id with
    | none =>
      rw [here] at first
      rw [first]
      exact .inr ⟨[], id, rest, rfl, List.forall_mem_nil _, here, rfl⟩
    | some p =>
      rw [here] at first
      rw [first]
      rcases ih with ⟨found, all, values⟩ | ⟨front, missing, back, rfl, known, absent, fails⟩
      · rw [all]
        exact .inl ⟨p :: found, rfl, by rw [List.map_cons, here, values, List.map_cons]⟩
      · rw [fails]
        refine .inr ⟨id :: front, missing, back, rfl, ?_, absent, rfl⟩
        rw [List.forall_mem_cons, here]
        exact ⟨Option.some_ne_none p, known⟩

/-- A request reads what was written under its ids, in its order, or names the first id that was
never written. -/
theorem Holds.readParameters (holds : Holds counts calls b) (ids : List UInt8) :
    (∃ found, b.readParameters ids = .ok found ∧
      ids.map (fun id => BoardCall.last? (·.parameter? id) calls) = found.map some) ∨
    ∃ front id back, ids = front ++ id :: back ∧
      (∀ earlier ∈ front, BoardCall.last? (·.parameter? earlier) calls ≠ none) ∧
      BoardCall.last? (·.parameter? id) calls = none ∧
      b.readParameters ids = .error (.parameterNeverWritten id) := by
  rw [Board.readParameters, if_pos holds.hasParameters]
  exact mapM_found (fun id => holds.parameters id ▸ rfl) ids

/-- How a board answers behind a list of calls. -/
structure Recalls (counts : List UInt8) (calls : List BoardCall) (b : Board) : Prop where
  clockFrequency : ∀ module clock channel, b.clockFrequency module clock channel =
    if module.toNat < counts.length then .ok (reading counts calls module clock channel)
    else .error (.invalidModule module)
  applied : ∀ module, b.applied? module =
    BoardCall.last? (·.config? counts module) (BoardCall.sinceReset calls)
  accepted : ∀ index config, config.Fits counts index →
    ∃ next, b.configure index config = .ok next
  refused : ∀ index config, ¬config.Fits counts index → b.step (.configure index config) = b ∧
    ∃ fault, b.configure index config = .error fault ∧ config.Refused counts index fault
  unset : ∀ index clock frequency channel,
    (counts.length ≤ index.toNat ∨ clock.isReadOnly = true) →
    b.step (.setClock index clock frequency channel) = b ∧
    b.setClockFrequency index clock frequency channel =
      .error (if index.toNat < counts.length then .invalidConfig (.readOnlyClock clock)
        else .invalidModule index)
  parameters : ∀ ids,
    (∃ found, b.readParameters ids = .ok found ∧
      ids.map (fun id => BoardCall.last? (·.parameter? id) calls) = found.map some) ∨
    ∃ front id back, ids = front ++ id :: back ∧
      (∀ earlier ∈ front, BoardCall.last? (·.parameter? earlier) calls ≠ none) ∧
      BoardCall.last? (·.parameter? id) calls = none ∧
      b.readParameters ids = .error (.parameterNeverWritten id)

theorem Holds.recalls (holds : Holds counts calls b) : Recalls counts calls b where
  clockFrequency := holds.clockFrequency
  applied := holds.configs
  parameters := holds.readParameters
  accepted index config fits := by
    rcases holds.configure_cases index config with ⟨_, stored⟩ | ⟨_, _, refused⟩
    · exact ⟨_, stored⟩
    · exact absurd fits refused.not_fits
  refused index config unfit := by
    rcases holds.configure_cases index config with ⟨fits, _⟩ | ⟨fault, failed, refused⟩
    · exact absurd fits unfit
    · exact ⟨by rw [Board.step, Board.call, failed], fault, failed, refused⟩
  unset index clock frequency channel wrong := by
    rcases holds.setClockFrequency_cases index clock frequency channel with
      ⟨inside, free, _⟩ | ⟨past, failed⟩ | ⟨inside, _, failed⟩
    · rcases wrong with past | fixed
      · omega
      · rw [free] at fixed
        contradiction
    · rw [Board.step, Board.call, failed, if_neg past]
      exact ⟨rfl, rfl⟩
    · rw [Board.step, Board.call, failed, if_pos inside]
      exact ⟨rfl, rfl⟩

end Board

def DeviceEvent.boardCall? : DeviceEvent → Option BoardCall
  | .board call => some call
  | _ => none

namespace Device
variable {counts : List UInt8} {before : List BoardCall} {d : Device}

/-- A device whose board holds what the calls wrote, with a module for each that the board has. -/
structure Fronted (counts : List UInt8) (calls : List BoardCall) (d : Device) : Prop where
  board : d.board.Holds counts calls
  modules : d.modules.length = counts.length

/-- That a module is looked up first changes no answer of the board. -/
theorem Fronted.module?_bind (fronted : Fronted counts before d) {α : Type} (index : UInt8)
    (act : Except Fault α)
    (fails : d.board.module? index = .error (.invalidModule index) →
      act = .error (.invalidModule index)) :
    (do let _ ← d.module? index; act) = act := by
  rcases d.module?_cases index with ⟨m, there⟩ | absent
  · rw [there]
    rfl
  · rw [absent, fails]
    · rfl
    · rcases fronted.board.module? index with ⟨description, _, found⟩ | ⟨missing, _⟩
      · obtain ⟨inside, _⟩ := List.getElem?_eq_some_iff.mp found
        rw [← fronted.modules] at inside
        rw [Device.module?, List.getElem?_eq_getElem inside] at absent
        contradiction
      · exact missing

theorem Fronted.clockFrequency (fronted : Fronted counts before d) (index : UInt8) (clock : Clock)
    (channel : UInt8) :
    d.clockFrequency index clock channel = d.board.clockFrequency index clock channel := by
  refine fronted.module?_bind index _ fun absent => ?_
  unfold Board.clockFrequency
  rw [absent]
  rfl

theorem onBoard_board (d : Device) (change : Board → Except Fault Board) (call : BoardCall)
    (same : change d.board = d.board.call call) :
    (d.onBoard change).2.board = d.board.step call := by
  rw [onBoard, Board.step, same]
  cases d.board.call call <;> rfl

theorem Fronted.boardStep (fronted : Fronted counts before d) (call : BoardCall) :
    (d.boardStep call).2.board = d.board.step call := by
  cases call with
  | configure index config =>
    refine d.onBoard_board _ _ (fronted.module?_bind index _ fun absent => ?_)
    rw [Board.configure, absent]
    rfl
  | setClock index clock frequency channel =>
    refine d.onBoard_board _ _ (fronted.module?_bind index _ fun absent => ?_)
    rw [Board.setClockFrequency, absent]
    rfl
  | reset | enableCache _ | writeParameters _ => exact d.onBoard_board _ _ rfl
  | clock _ _ _ | readParameters _ => rfl

theorem Fronted.step (fronted : Fronted counts before d) (e : DeviceEvent) :
    Fronted counts (before ++ e.boardCall?.toList) (d.step e).2 := by
  cases own : e.module? with
  | some index =>
    have other : e.boardCall? = none := by cases e <;> first | rfl | contradiction
    rw [step_eq_onModule? own, onModule?, other, Option.toList_none, List.append_nil]
    split
    · exact fronted
    · exact ⟨fronted.board, by rw [putModule, List.length_set, fronted.modules]⟩
  | none =>
    cases e with
    | board call =>
      refine ⟨?_, ?_⟩
      · rw [Device.step, fronted.boardStep]
        exact fronted.board.step call
      · rw [Device.step, boardStep_modules, fronted.modules]
    | _ => contradiction

theorem Fronted.run (fronted : Fronted counts before d) (events : List DeviceEvent) :
    Fronted counts (before ++ events.filterMap DeviceEvent.boardCall?) (d.run events) := by
  induction events generalizing before d with
  | nil => rwa [List.filterMap_nil, List.append_nil]
  | cons e rest ih =>
    have later := ih (fronted.step e)
    rw [List.append_assoc] at later
    rw [List.filterMap_cons]
    cases called : e.boardCall? <;> rwa [called] at later

theorem fronted_simulated {links : List Link} (opened : Device.simulated links true = .ok d) :
    Fronted (links.map (·.channelCount)) [] d := by
  rw [Device.simulated, create] at opened
  split at opened
  · contradiction
  · cases opened
    exact ⟨Board.holds_simulated _, by simp⟩

end Device

/-- Behind any calls a simulated board answers by the list of them, on its own and as the board of
a device that streams meanwhile. -/
theorem Board.simulated_recalls (counts : List UInt8) (calls : List BoardCall) :
    Recalls counts calls ((simulated counts true).run calls) ∧
    ∀ links d events, Device.simulated links true = .ok d →
      let behind := d.run events
      let named := events.filterMap DeviceEvent.boardCall?
      Recalls (links.map (·.channelCount)) named behind.board ∧
      (∀ index clock channel, behind.clockFrequency index clock channel =
        behind.board.clockFrequency index clock channel) ∧
      ∀ call, (behind.boardStep call).2.board = behind.board.step call := by
  refine ⟨((holds_simulated counts).run calls).recalls, fun links d events opened => ?_⟩
  have fronted := (Device.fronted_simulated opened).run events
  exact ⟨fronted.board.recalls, fronted.clockFrequency, fronted.boardStep⟩

/-- A configuration with `used` channels, all of them receiving at one frequency. -/
def RadioConfig.using (used : Nat) (frequency : Double) : RadioConfig where
  referenceClock := .zero
  channels := List.replicate used
    ⟨{ PathConfig.default with centerFrequency := frequency, enabled := true }, .default⟩
  skipDefaults := false

/-- Two modules with two channels and one, of which the second refuses a configuration. -/
def retuned : List DeviceEvent :=
  [.board (.setClock 0 .cgen (.ofNat 8) 1), .board (.configure 1 (.using 1 (.ofNat 7))),
    .board (.configure 1 (.using 2 (.ofNat 9))), .board (.setClock 0 .rxTsp (.ofNat 5) 0)]

theorem Board.simulated_recalls_retuned : ∃ d,
    Device.simulated [.simulated 2 true, .simulated 1 true] true = .ok d ∧
    (d.run retuned).clockFrequency 0 .rxTsp 1 = .ok (.ofNat 2) ∧
    (d.run retuned).clockFrequency 1 .sxr 0 = .ok (.ofNat 7) ∧
    (d.run retuned).board.applied? 1 = some (.using 1 (.ofNat 7)) := by
  refine ⟨_, rfl, ?_⟩
  obtain ⟨recalls, same, _⟩ := (Board.simulated_recalls [] []).2
    [.simulated 2 true, .simulated 1 true] _ retuned rfl
  rw [same, same, recalls.clockFrequency, recalls.clockFrequency, recalls.applied]
  exact ⟨by decide +kernel, by decide +kernel, by decide +kernel⟩

end RadioStream
