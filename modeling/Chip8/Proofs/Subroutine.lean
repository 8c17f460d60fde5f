import Chip8.Proofs.Execution
import Chip8.Proofs.Run

/-!
# Subroutines

A call puts the address after itself on the stack and a return takes the
innermost address off it, so that calls and returns match like brackets: from a
call until its return, everything happens on top of the stack that the call left
behind, its base.

* `StackMove`: what an action does to the stack, a return being told in full;
* `CallStack.RestsOn`: a stack has another one at its bottom;
* `act_restsOn_or_return`, `actAll_restsOn`: the base stays in place until the
  return from it;
* `subroutine`: a call, and the return that matches it.
-/

namespace Chip8

namespace CallStack

variable {stack base : CallStack}

/-- The outermost addresses of a stack are those of its base. -/
structure RestsOn (stack base : CallStack) : Prop where
  items : base.items <:+ stack.items
  limit : stack.limit = base.limit

theorem RestsOn.refl (base : CallStack) : base.RestsOn base :=
  ⟨List.suffix_rfl, rfl⟩

theorem RestsOn.depth_le (h : stack.RestsOn base) : base.depth ≤ stack.depth :=
  h.items.length_le

theorem RestsOn.take_toList (h : stack.RestsOn base) :
    stack.toList.take base.depth = base.toList := by
  have hprefix : base.toList <+: stack.toList := List.reverse_prefix.2 h.items
  have hlength : base.toList.length = base.depth := List.length_reverse
  rw [← hlength]
  exact (List.prefix_iff_eq_take.1 hprefix).symm

/-- One more address goes on top of the base. -/
theorem RestsOn.cons (h : stack.RestsOn base) (address : Int) :
    CallStack.RestsOn ⟨address :: stack.items, stack.limit⟩ base :=
  ⟨h.items.trans (List.suffix_cons _ _), h.limit⟩

/-- Taking an address off leaves the base in place, or takes its innermost one. -/
theorem RestsOn.tail {address : Int} {rest : List Int} (h : stack.RestsOn base)
    (hitems : stack.items = address :: rest) :
    CallStack.RestsOn ⟨rest, stack.limit⟩ base ∨ base.items = address :: rest := by
  have hsuffix := h.items
  rw [hitems] at hsuffix
  rcases List.suffix_cons_iff.1 hsuffix with hbase | hbase
  · exact .inr hbase
  · exact .inl ⟨hbase, h.limit⟩

end CallStack

namespace Machine

variable {s : Setup} {m : Machine} {w : Word} {base : CallStack}

/-- What an action does to the call stack. -/
inductive StackMove (s : Setup) (m : Machine) (a : Action) : Prop
  /-- The stack stays as it is. -/
  | stays (stack : (m.act s a).stack = m.stack)
  /-- A return address is put on it. -/
  | calls (address : Int)
      (stack : (m.act s a).stack = ⟨address :: m.stack.items, m.stack.limit⟩)
  /-- A step goes back to the innermost return address. -/
  | returns (action : a = .step) (result : (m.step s).result = .ok (.decode 0x00EE))
      (address : Int) (rest : List Int) (items : m.stack.items = address :: rest)
      (pc : (m.act s a).registers.pc = address)
      (stack : (m.act s a).stack = ⟨rest, m.stack.limit⟩)

/-- Only a call puts an address on the stack, and only a return takes one off. -/
theorem stackMove (s : Setup) (m : Machine) (a : Action) : StackMove s m a := by
  cases a with
  | tick => exact .stays rfl
  | setKey k pressed => exact .stays (by rw [act_setKey])
  | step =>
    cases stepCase s m with
    | halted f fault machine => exact .stays (congrArg stack machine :)
    | outside running range machine => exact .stays (congrArg stack machine :)
    | refused w c running range word refusal machine => exact .stays (congrArg stack machine :)
    | executed w e running range word effect machine result =>
      have hstack : (m.act s .step).stack = e.machine.stack := (congrArg stack machine :)
      have heffect := execute_stack effect
      by_cases hret : Form.ofWord w = .ret
      · obtain rfl := Form.ofWord_eq_ret_iff.1 hret
        cases hitems : m.stack.items with
        | nil => exact absurd hitems heffect.1
        | cons address rest =>
          have hpc := execute_pc effect
          simp only [nextPc, hret, hitems, List.headD_cons] at hpc
          refine .returns rfl result address rest hitems ?_ ?_
          · exact (congrArg (·.registers.pc) machine :).trans hpc
          · rw [hstack, heffect.2]
            simp only [fetched, hitems, List.tail_cons]
      · by_cases hcall : Form.ofWord w = .call
        · simp only [Instruction.decode, hcall] at heffect
          exact .calls _ (hstack.trans heffect.2)
        · exact .stays (hstack.trans ((execute_frame effect).stack hret hcall))

/-- An action leaves the base in place, unless it is the return from it. -/
theorem act_restsOn_or_return (h : m.stack.RestsOn base) (s : Setup) (a : Action) :
    (m.act s a).stack.RestsOn base ∨
      ∃ address rest, base.items = address :: rest ∧ a = .step ∧
        (m.step s).result = .ok (.decode 0x00EE) ∧ (m.act s a).registers.pc = address ∧
        (m.act s a).stack = ⟨rest, base.limit⟩ := by
  cases stackMove s m a with
  | stays stack => exact .inl (stack ▸ h)
  | calls address stack => exact .inl (stack ▸ h.cons address)
  | returns action result address rest items pc stack =>
    rcases h.tail items with hrests | hbase
    · exact .inl (stack ▸ hrests)
    · exact .inr ⟨address, rest, hbase, action, result, pc, by rw [stack, h.limit]⟩

/-- The base stays in place as long as the stack does not get shallower. -/
theorem actAll_restsOn {as : List Action} (h : m.stack.RestsOn base) (s : Setup)
    (hdeep : ∀ before, before <+: as → base.depth ≤ (m.actAll s before).stack.depth) :
    (m.actAll s as).stack.RestsOn base := by
  induction as generalizing m with
  | nil => exact h
  | cons a as ih =>
    have hrest : ∀ before, before <+: as →
        base.depth ≤ ((m.act s a).actAll s before).stack.depth := fun before hbefore =>
      hdeep (a :: before) (List.cons_prefix_cons.2 ⟨rfl, hbefore⟩)
    rcases act_restsOn_or_return h s a with hact | ⟨address, rest, hbase, -, -, -, hstack⟩
    · exact ih hact hrest
    · -- A return from the base makes the stack shallower.
      have hlt := hrest [] List.nil_prefix
      simp only [actAll, List.foldl_nil, CallStack.depth, hstack, hbase, List.length_cons] at hlt
      omega

theorem Fetches.call (hfetch : m.Fetches w) (hcall : w.family = 0x2)
    (hroom : (m.stack.items.length : Int) < m.stack.limit) :
    (m.step s).result = .ok (.decode w) ∧
      (m.step s).machine.stack = ⟨(m.registers.pc + 2) :: m.stack.items, m.stack.limit⟩ := by
  have hform := Form.ofWord_eq_call_iff.2 hcall
  cases he : (m.fetched w).execute s (.decode w) with
  | error c =>
    rcases execute_eq_error_iff.1 he with ⟨hret, -⟩ | ⟨-, hfull, -⟩
    · rw [Instruction.decode, hform] at hret
      cases hret
    · exact absurd hfull (Int.not_le.2 hroom)
  | ok e =>
    obtain ⟨hmachine, hresult⟩ := hfetch.step he
    have hstack := execute_stack he
    simp only [Instruction.decode, hform] at hstack
    exact ⟨hresult, (congrArg stack hmachine :).trans hstack.2⟩

/-- A call and its return. A call that finds room on the stack is executed and
    leaves the address after it there, above the addresses from before. As long
    as the stack stays deeper than before the call, whatever the host and the
    program do, these addresses stay at its bottom; and the first action after
    which it does not is a step that returns, to the address after the call, and
    leaves the stack as it was before. -/
theorem subroutine (s : Setup) (hfetch : m.Fetches w) (hcall : w.family = 0x2)
    (hlimit : m.stack.limit = CallStack.standardLimit) (hdepth : m.stack.depth < 16) :
    let d := m.stack.depth
    let p := m.registers.pc
    let start := (m.step s).machine
    (m.step s).result = .ok (.decode w) ∧ start.stack.toList = m.stack.toList ++ [p + 2] ∧
    ∀ as : List Action, (∀ before, before <+: as → d < (start.actAll s before).stack.depth) →
      let now := start.actAll s as
      now.stack.toList.take (d + 1) = m.stack.toList ++ [p + 2] ∧
      ∀ a, (now.act s a).stack.depth ≤ d →
        a = .step ∧ (now.step s).result = .ok (.decode 0x00EE) ∧
          (now.step s).machine.registers.pc = p + 2 ∧ (now.step s).machine.stack = m.stack := by
  intro d p start
  have hroom : (m.stack.items.length : Int) < m.stack.limit := by
    rw [hlimit]
    exact Int.ofNat_lt.2 hdepth
  obtain ⟨hresult, hstart⟩ := hfetch.call hcall hroom
  refine ⟨hresult, ?_, fun as hdeep => ?_⟩
  · rw [hstart, CallStack.toList, List.reverse_cons]
    rfl
  · -- The stack that the call leaves behind stays in place during the actions.
    intro now
    let base : CallStack := ⟨(p + 2) :: m.stack.items, m.stack.limit⟩
    have hbase : base.depth = d + 1 := List.length_cons
    have hnow : now.stack.RestsOn base :=
      actAll_restsOn (hstart ▸ .refl base) s fun before hbefore => hbase ▸ hdeep before hbefore
    refine ⟨?_, fun a hshallow => ?_⟩
    · rw [← hbase, hnow.take_toList, CallStack.toList, List.reverse_cons]
      rfl
    · rcases act_restsOn_or_return hnow s a with hact | ⟨_, _, hitems, rfl, hret, hpc, hstack⟩
      · have := hact.depth_le
        omega
      · cases hitems
        exact ⟨rfl, hret, hpc, hstack⟩

/-- A machine in a routine, about to call another one that calls a third. -/
def nestedCalls : Machine :=
  { powerOn {} with
    memory := (Memory.blank _).putAll 0x200 [0x22, 0x04, 0, 0, 0x22, 0x08, 0x00, 0xEE, 0x00, 0xEE]
    stack := ⟨[0x300], 16⟩ }

/-- What happens until the second one is about to return. -/
def untilReturn : List Action := [.step, .tick, .setKey 3 true, .step]

/-- The return of the third one leaves the stack deep enough, that of the second
    one goes back to the first. -/
theorem subroutine_nestedCalls :
    nestedCalls.Fetches 0x2204 ∧ (0x2204 : Word).family = 0x2 ∧
      nestedCalls.stack.limit = CallStack.standardLimit ∧ nestedCalls.stack.depth < 16 ∧
      (∀ before, before <+: untilReturn → nestedCalls.stack.depth <
        ((nestedCalls.step standardSetup).machine.actAll standardSetup before).stack.depth) ∧
      (let now := (nestedCalls.step standardSetup).machine.actAll standardSetup untilReturn
      (now.act standardSetup .step).stack.depth ≤ nestedCalls.stack.depth ∧
        now.stack.toList.take 2 = [0x300, 0x202] ∧
        (now.step standardSetup).machine.registers.pc = 0x202 ∧
        (now.step standardSetup).machine.stack = nestedCalls.stack) := by
  have hfetch : nestedCalls.Fetches 0x2204 := ⟨rfl, by decide, by decide +kernel⟩
  have hdeep : ∀ before, before <+: untilReturn → nestedCalls.stack.depth <
      ((nestedCalls.step standardSetup).machine.actAll standardSetup before).stack.depth := by
    -- A prefix is told by its length.
    have htake : ∀ n ≤ 4, nestedCalls.stack.depth < ((nestedCalls.step standardSetup).machine.actAll
        standardSetup (untilReturn.take n)).stack.depth := by decide +kernel
    intro before hbefore
    rw [List.prefix_iff_eq_take.1 hbefore]
    exact htake _ hbefore.length_le
  obtain ⟨-, -, hrun⟩ := subroutine standardSetup hfetch (by decide) rfl (by decide)
  obtain ⟨hbase, hreturn⟩ := hrun untilReturn hdeep
  have hshallow : (((nestedCalls.step standardSetup).machine.actAll standardSetup untilReturn).act
      standardSetup .step).stack.depth ≤ nestedCalls.stack.depth := by decide +kernel
  obtain ⟨-, -, hpc, hstack⟩ := hreturn .step hshallow
  exact ⟨hfetch, by decide, rfl, by decide, hdeep, hshallow, hbase, hpc, hstack⟩

end Machine

end Chip8
