import Chip8.Buzzer
import Chip8.Renderer
import Mathlib.Tactic.SplitIfs

/-!
# Resources of the host

A window, a terminal and a mixer are taken from the host by one call and
released by another. Of the calls that are made, these are the *handovers* of a
resource (`handovers`), and it is given back (`GivenBack`) if they are none at
all, or the two of them in this order.

* `Renderer.handovers_handle`, `Buzzer.handovers_switch`: while they are in use,
  neither a renderer nor a buzzer hands anything over;
* `Buzzer.exists_start`: there is a wave for the buzzer's tone, so that a buzzer
  is always made.
-/

namespace Chip8

/-- What is taken from the host. -/
inductive Resource
  | window
  | terminal
  | mixer
  deriving DecidableEq, Repr

/-- A resource changes hands. -/
inductive Handover
  | taken
  | released
  deriving DecidableEq, Repr

/-- The handover of a resource that a call makes. -/
def HostCall.handover? : Resource → HostCall → Option Handover
  | .window, .openDisplay => some .taken
  | .window, .closeDisplay => some .released
  | .terminal, .openTerminal => some .taken
  | .terminal, .closeTerminal => some .released
  | .mixer, .openMixer => some .taken
  | .mixer, .closeMixer => some .released
  | _, _ => none

/-- The handovers of a resource among calls. -/
def handovers (r : Resource) (calls : List HostCall) : List Handover :=
  calls.filterMap (HostCall.handover? r)

/-- A resource is never taken, or taken and released once. -/
def GivenBack (r : Resource) (calls : List HostCall) : Prop :=
  handovers r calls = [] ∨ handovers r calls = [.taken, .released]

theorem handovers_append (r : Resource) (calls more : List HostCall) :
    handovers r (calls ++ more) = handovers r calls ++ handovers r more :=
  List.filterMap_append

/-! ### What is taken -/

/-- The resource that a renderer of a kind takes. -/
def RendererKind.resource? : RendererKind → Option Resource
  | plain => none
  | window => some .window
  | terminal => some .terminal

/-- The resource that a buzzer of a kind takes. -/
def BuzzerKind.resource? : BuzzerKind → Option Resource
  | tone => some .mixer
  | _ => none

/-- A handover of a resource, if it is the one that is taken. -/
def share (own : Option Resource) (r : Resource) (h : Handover) : List Handover :=
  if own = some r then [h] else []

/-! ### Renderers -/

namespace Renderer

variable {k k' : Renderer} {calls : List HostCall} {r : Resource}

theorem Window.handovers_showCalls (w : Window) : handovers r w.showCalls = [] := by
  unfold showCalls
  split <;> cases r <;> rfl

theorem Window.handovers_handle {w w' : Window} {c : RenderCommand}
    (h : w.handle c = .ok (w', calls)) : handovers r calls = [] := by
  cases c with
  | resolution width height =>
    cases h
    exact handovers_showCalls _
  | pixel x y lit =>
    simp only [handle] at h
    split at h <;> cases h
    rfl
  | refresh changed =>
    cases h
    cases changed
    · rfl
    · exact handovers_showCalls w
  | title text =>
    cases h
    cases r <;> rfl

theorem Terminal.handovers_refresh (t : Terminal) : handovers r t.refresh.2 = [] := by
  simp only [refresh, resizeCalls]
  split_ifs <;> cases r <;> rfl

theorem Terminal.handovers_handle (t : Terminal) (c : RenderCommand) :
    handovers r (t.handle c).2 = [] := by
  cases c with
  | resolution width height => cases r <;> rfl
  | pixel x y lit => cases r <;> rfl
  | refresh changed => exact handovers_refresh _
  | title text =>
    simp only [handle]
    split_ifs <;> cases r <;> rfl

/-- A command hands nothing over, and leaves what there is to release. -/
theorem handovers_handle {c : RenderCommand} (h : k.handle c = .ok (k', calls)) :
    handovers r calls = [] ∧ k'.closeCalls = k.closeCalls := by
  cases k with
  | plain p =>
    cases h
    exact ⟨rfl, rfl⟩
  | terminal t =>
    cases h
    exact ⟨Terminal.handovers_handle t c, rfl⟩
  | window w =>
    cases hw : w.handle c with
    | error e =>
      simp only [handle, hw] at h
      cases h
    | ok result =>
      simp only [handle, hw] at h
      cases h
      exact ⟨Window.handovers_handle hw, rfl⟩

end Renderer

/-! ### Buzzers -/

namespace Buzzer

variable (b : Buzzer) (on : Bool) (r : Resource)

theorem handovers_switch : handovers r (b.switch on).2 = [] := by
  unfold switch
  split <;> cases r <;> rfl

theorem handovers_closeCalls : handovers r b.closeCalls = share b.kind.resource? r .released := by
  obtain ⟨kind, on⟩ := b
  cases kind <;> cases r <;> rfl

/-- A buzzer is always made, as there is a wave for its tone. -/
theorem exists_start (kind : BuzzerKind) :
    ∃ calls, start kind (.real SquareWave.toneFrequency) = (.ok ⟨kind, false⟩, calls) ∧
      ∀ r, handovers r calls = share kind.resource? r .taken := by
  have hwave : (SquareWave.make (.real SquareWave.toneFrequency)
      (.whole SquareWave.playbackFrequency)).isOk = true := by decide +kernel
  cases kind with
  | mute => exact ⟨[], rfl, fun r => rfl⟩
  | bell => exact ⟨[], rfl, fun r => rfl⟩
  | tone =>
    simp only [start]
    split
    · exact ⟨_, rfl, fun r => by cases r <;> rfl⟩
    · rename_i e h
      rw [h] at hwave
      cases hwave

end Buzzer

end Chip8
