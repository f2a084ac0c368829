import Mathlib.Logic.Relation
import RadioStream.Module.LiveStream
import RadioStream.Proofs.Session.Halted

/-!
The work of a stream on its link in single steps. Whatever the workers do between calls
and behind a halt is packets that are read and passes that are made, one after the other.
Such a step moves samples over the link and may halt the stream. It never arms or disarms
the link and never brings a halted stream back.
-/
namespace RadioStream
open Relation

namespace Link

/-- A link without the packets and submissions that are on it. -/
def wiring (l : Link) : Link := { l with incoming := [], submissions := [], cursors := .empty }

theorem wiring_echo (size : Nat) (l : Link) (packets : List TxPacket) :
    (packets.foldl (echo size) l).wiring = l.wiring := by
  induction packets generalizing l with
  | nil => rfl
  | cons p rest ih => exact ih (l.echo size p)

theorem wiring_write {l after : Link} {packets : List TxPacket}
    (written : l.write packets = .ok after) : after.wiring = l.wiring := by
  unfold write at written
  dsimp only at written
  split at written
  · contradiction
  · split at written
    · rw [← Except.ok.inj written]
      exact wiring_echo _ _ packets
    · rw [← Except.ok.inj written]
      rfl

theorem wiring_read {l after : Link} {packet : RxPacket}
    (found : l.read = .ok (some (packet, after))) : after.wiring = l.wiring := by
  unfold read at found
  split at found
  · contradiction
  · split at found
    · simp at found
    · obtain ⟨_, rfl⟩ := Prod.mk.inj (Option.some.inj (Except.ok.inj found))
      rfl

end Link

namespace Session

theorem shut_halted (s : Session) : s.shut.halted = true := by
  rw [shut]
  split
  · assumption
  · rfl

theorem halt_halted (s : Session) (reason : Option Fault) : (s.halt reason).halted = true :=
  shut_halted _

theorem accept_staysHalted (s : Session) (p : RxPacket) : StaysHalted s (s.accept p) := by
  rcases s.accept_cases p with ⟨after, _⟩ | ⟨lane, timeline, _, _, _, kept⟩
  · rw [after]
    intro halted
    exact ⟨halted, rfl⟩
  · exact kept.halted

end Session

namespace LiveStream
variable {s t : LiveStream}

/-- The receive worker takes one packet from the link, if there is one. -/
def readOnce (s : LiveStream) : LiveStream :=
  match s.link.read with
  | .error reason => { s with session := s.session.halt (some reason) }
  | .ok none => s
  | .ok (some (packet, link)) => { session := s.session.accept packet, link := link }

inductive Step : LiveStream → LiveStream → Prop
  | read (s : LiveStream) : Step s s.readOnce
  | pass (s : LiveStream) (draining : Bool) : Step s (s.pass draining).1

/-- What the workers can make of a stream, in any order of their steps. -/
def Works : LiveStream → LiveStream → Prop := ReflTransGen Step

namespace Works

theorem refl (s : LiveStream) : Works s s := ReflTransGen.refl

theorem trans {u : LiveStream} (first : Works s t) (second : Works t u) : Works s u :=
  ReflTransGen.trans first second

theorem read (s : LiveStream) : Works s s.readOnce := ReflTransGen.single (.read s)

theorem pass (s : LiveStream) (draining : Bool) : Works s (s.pass draining).1 :=
  ReflTransGen.single (.pass s draining)

/-- What every step keeps, the workers keep. -/
theorem invariant {P : LiveStream → Prop} (preserves : ∀ {s t}, P s → Step s t → P t)
    (works : Works s t) (initial : P s) : P t := by
  induction works with
  | refl => exact initial
  | tail _ last ih => exact preserves ih last

theorem processPackets (steps : Nat) (s : LiveStream) : Works s (s.processPackets steps) := by
  induction steps generalizing s with
  | zero => exact refl s
  | succ steps ih =>
    have one := read s
    rw [LiveStream.processPackets]
    unfold readOnce at one
    split
    · exact refl s
    · cases answer : s.link.read with
      | error reason =>
        rw [answer] at one
        exact one
      | ok arrived =>
        rw [answer] at one
        cases arrived with
        | none => exact refl s
        | some arrival => exact one.trans (ih _)

theorem receiveAll (s : LiveStream) : Works s s.receiveAll := by
  rw [LiveStream.receiveAll]
  split
  · exact refl s
  · exact processPackets _ s

theorem sendReady (wrote : Bool) (steps : Nat) (s : LiveStream) :
    Works s (s.sendReady wrote steps).1 := by
  induction steps generalizing s wrote with
  | zero => exact refl s
  | succ steps ih =>
    have one := pass s false
    rw [LiveStream.sendReady]
    generalize s.pass false = passed at one ⊢
    rcases passed with ⟨next, outcome⟩
    cases outcome with
    | refused => exact one
    | noWrite | written =>
      dsimp only
      split
      · exact one
      · split
        · exact one.trans (ih _ next)
        · exact one

theorem rounds (steps : Nat) (s : LiveStream) : Works s (s.rounds steps).1 := by
  induction steps generalizing s with
  | zero => exact refl s
  | succ steps ih =>
    have received := receiveAll s
    have sent := sendReady false s.receiveAll.passBound s.receiveAll
    rw [LiveStream.rounds]
    split
    · exact received
    · dsimp only
      split
      · exact received.trans sent
      · exact (received.trans sent).trans (ih _)

theorem work (s : LiveStream) : Works s s.work.1 := rounds _ s

theorem drain (steps : Nat) (s : LiveStream) : Works s (s.drain steps) := by
  induction steps generalizing s with
  | zero => exact refl s
  | succ steps ih =>
    have one := pass s true
    rw [LiveStream.drain]
    generalize s.pass true = passed at one ⊢
    rcases passed with ⟨next, outcome⟩
    cases outcome with
    | refused => exact one
    | noWrite | written =>
      dsimp only
      split
      · exact one
      · exact one.trans (ih next)

/-- A stream winds down by the work that is left, and then the link is disarmed. -/
theorem windDown (s : LiveStream) (standing : TxStanding) :
    ∃ t, Works s t ∧ s.windDown standing = { t with link := t.link.disarm.2 } := by
  unfold LiveStream.windDown
  refine ⟨_, ?_, rfl⟩
  split
  · exact refl s
  · cases standing with
    | gone => exact refl s
    | betweenPasses => exact drain _ s
    | waiting =>
      have one := pass s false
      dsimp only
      generalize s.pass false = passed at one ⊢
      rcases passed with ⟨next, outcome⟩
      cases outcome with
      | refused => exact one
      | noWrite | written => exact one.trans (drain _ next)

end Works

theorem Step.wiring_eq (step : Step s t) : t.link.wiring = s.link.wiring := by
  cases step with
  | read =>
    unfold readOnce
    split
    · rfl
    · rfl
    · next found => exact Link.wiring_read found
  | pass draining =>
    unfold LiveStream.pass
    dsimp only
    split
    · rfl
    · split
      · next written => exact Link.wiring_write written
      · rfl

theorem Step.staysHalted (step : Step s t) : s.session.StaysHalted t.session := by
  cases step with
  | read =>
    unfold readOnce
    split
    · exact (s.session.halt_kept _).halted
    · intro halted
      exact ⟨halted, rfl⟩
    · exact s.session.accept_staysHalted _
  | pass draining =>
    have kept (outcome : Option (Except Fault Unit)) :=
      (TxPass.finish_kept (s.session.beginPass s.link.hardwareTime draining) outcome).halted
    unfold LiveStream.pass
    dsimp only
    split
    · exact kept none
    · split
      · exact kept (some (.ok ()))
      · exact kept (some (.error _))

theorem Works.wiring_eq (works : Works s t) : t.link.wiring = s.link.wiring :=
  works.invariant (P := fun u => u.link.wiring = s.link.wiring)
    (fun same step => step.wiring_eq.trans same) rfl

theorem Works.staysHalted (works : Works s t) : s.session.StaysHalted t.session :=
  works.invariant (P := fun u => s.session.StaysHalted u.session)
    (fun halted step => halted.trans step.staysHalted) fun halted => ⟨halted, rfl⟩

end LiveStream
end RadioStream
