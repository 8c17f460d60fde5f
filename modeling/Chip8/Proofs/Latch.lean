import Chip8.Keypad
import Chip8.Value
import Mathlib.Data.List.DropRight

/-!
# The latch of a keypad

A keypad has a history: keys are held and released, all of them are released at once, the latch
is forgotten, and keys that are not on the keypad are refused. What it shows is told by that
history alone. A key is held if the last value set for it says so (`saidHeld`), and the latch
holds the key that went from released to pressed most recently, if it was not emptied since
(`Pressed`, `LastPressed`).

* `Call`, `answer`: what may be asked of a keypad, and what comes of it;
* `saidHeld_concat`, `pressed_concat`: what one more call adds to a history;
* `held_perform`, `latch_of_presses`, `latch_of_empties`, `latch_of_calm`: what it does to a
  keypad;
* `keypad_of_calls`: a keypad shows its history.
-/

namespace Chip8.Keypad

/-- A call to a keypad. A key is any integer, and it is held or released by a value of any
    kind. -/
inductive Call
  | set (key : Int) (value : Value)
  | forget
  | releaseAll
  | ask (key : Int)

/-- The keypad after a call, with the answer to a question, or the refusal of the call. -/
def answer (p : Keypad) : Call → Except KeypadError (Keypad × Option Bool)
  | .set key value => (p.setKey key value.truthy).map (·, none)
  | .forget => .ok (p.forget, none)
  | .releaseAll => .ok (released, none)
  | .ask key => .ok (p, some (p.isHeld key))

/-- The keypad after a call, which stays as it is if the call is refused. -/
def perform (p : Keypad) (c : Call) : Keypad :=
  match p.answer c with
  | .ok (after, _) => after
  | .error _ => p

/-- The keypad after calls in turn. -/
def performAll (p : Keypad) (calls : List Call) : Keypad :=
  calls.foldl perform p

namespace Call

/-- What a call sets a key to: held, or released. -/
def sets? (key : Int) : Call → Option Bool
  | set k value => if k = key then some value.truthy else none
  | _ => none

/-- A call releases all keys. -/
def isReleaseAll : Call → Bool
  | releaseAll => true
  | _ => false

/-- A call empties the latch. -/
def empties : Call → Bool
  | forget | releaseAll => true
  | _ => false

end Call

variable {p : Keypad} {c : Call} {calls before : List Call} {key : Key}

/-! ### Histories -/

/-- A key is held after calls if the last value set for it since all keys were released is
    true. -/
def saidHeld (key : Int) (calls : List Call) : Bool :=
  ((calls.rtakeWhile fun c => !c.isReleaseAll).filterMap (·.sets? key)).getLast?.getD false

/-- Of some calls, the one that follows those `before` it changes a key from released to
    pressed, and the latch is not emptied after that. -/
def Pressed (calls before : List Call) (key : Key) : Prop :=
  ∃ c after, calls = before ++ c :: after ∧ c.sets? key.val = some true ∧
    saidHeld key.val before = false ∧ ∀ d ∈ after, d.empties = false

/-- No key is pressed later than this one. -/
def LastPressed (calls : List Call) (key : Key) : Prop :=
  ∃ before, Pressed calls before key ∧
    ∀ later other, Pressed calls later other → later.length ≤ before.length

theorem saidHeld_concat (k : Int) (calls : List Call) (c : Call) :
    saidHeld k (calls ++ [c]) =
      if c.isReleaseAll then false else (c.sets? k).getD (saidHeld k calls) := by
  rw [saidHeld, List.rtakeWhile_concat]
  cases hall : c.isReleaseAll with
  | true => rfl
  | false =>
    simp only [Bool.not_false, if_true, List.filterMap_append, List.getLast?_append]
    cases h : c.sets? k <;> simp [h, saidHeld]

theorem not_pressed_nil : ¬Pressed [] before key := by
  rintro ⟨c, after, h, -⟩
  exact List.append_ne_nil_of_right_ne_nil _ (List.cons_ne_nil _ _) h.symm

/-- One more call presses a key itself, or keeps what was pressed before if it does not empty
    the latch. -/
theorem pressed_concat :
    Pressed (calls ++ [c]) before key ↔
      before = calls ∧ c.sets? key.val = some true ∧ saidHeld key.val calls = false ∨
        c.empties = false ∧ Pressed calls before key := by
  constructor
  · -- The press is the last call itself, or the last call follows it.
    rintro ⟨d, after, hsplit, hsaid, hreleased, hkept⟩
    rcases List.eq_nil_or_concat' after with rfl | ⟨rest, last, rfl⟩
    · obtain ⟨rfl, hd⟩ := List.append_inj' hsplit rfl
      obtain rfl := List.singleton_inj.1 hd
      exact .inl ⟨rfl, hsaid, hreleased⟩
    · rw [← List.cons_append, ← List.append_assoc] at hsplit
      obtain ⟨rfl, hlast⟩ := List.append_inj' hsplit rfl
      obtain rfl := List.singleton_inj.1 hlast
      exact .inr ⟨hkept _ (List.mem_append_right _ List.mem_cons_self), d, rest, rfl, hsaid,
        hreleased, fun e he => hkept e (List.mem_append_left _ he)⟩
  · rintro (⟨rfl, hsaid, hreleased⟩ | ⟨hkeeps, d, after, rfl, hsaid, hreleased, hkept⟩)
    · exact ⟨c, [], rfl, hsaid, hreleased, List.forall_mem_nil _⟩
    · refine ⟨d, after ++ [c], by simp, hsaid, hreleased, fun e he => ?_⟩
      rcases List.mem_append.1 he with he | he
      · exact hkept e he
      · exact List.mem_singleton.1 he ▸ hkeeps

theorem Pressed.length_lt (h : Pressed calls before key) : before.length < calls.length := by
  obtain ⟨c, after, rfl, -⟩ := h
  simp

theorem sets?_eq_some_iff {k : Int} {held : Bool} :
    c.sets? k = some held ↔ ∃ value, c = .set k value ∧ value.truthy = held := by
  cases c with
  | set j value =>
    simp only [Call.sets?, Call.set.injEq]
    split
    · subst j
      simp
    next hne => simp [hne]
  | forget | releaseAll | ask => simp [Call.sets?]

/-- A key that the last call presses is pressed last. -/
theorem lastPressed_of_presses (hsaid : c.sets? key.val = some true)
    (hreleased : saidHeld key.val calls = false) (other : Key) :
    LastPressed (calls ++ [c]) other ↔ key = other := by
  have hpress : Pressed (calls ++ [c]) calls key := pressed_concat.2 (.inl ⟨rfl, hsaid, hreleased⟩)
  constructor
  · rintro ⟨before, hbefore, hlast⟩
    rcases pressed_concat.1 hbefore with ⟨-, hother, -⟩ | ⟨-, hearlier⟩
    · obtain ⟨value, rfl, -⟩ := sets?_eq_some_iff.1 hsaid
      obtain ⟨_, hset, -⟩ := sets?_eq_some_iff.1 hother
      exact Fin.ext (Int.natCast_inj.1 (Call.set.inj hset).1)
    · exact absurd hearlier.length_lt (Nat.not_lt.2 (hlast calls key hpress))
  · rintro rfl
    refine ⟨calls, hpress, fun later other h => Nat.le_of_lt_succ ?_⟩
    simpa using h.length_lt

/-! ### Calls -/

theorem perform_set (p : Keypad) (k : Int) (value : Value) :
    p.perform (.set k value) = (key? k).elim p (p.set · value.truthy) := by
  simp only [perform, answer, setKey]
  cases key? k <;> rfl

/-- A key is as a call sets it, or else as it was. -/
theorem held_perform (p : Keypad) (c : Call) (key : Key) :
    (p.perform c).held[key] =
      if c.isReleaseAll then false else (c.sets? key.val).getD p.held[key] := by
  cases c with
  | set k value =>
    rw [perform_set, Call.sets?]
    cases hk : key? k with
    | none =>
      have hne : k ≠ key.val := fun h => by
        rw [key?_eq_some_iff.2 h] at hk
        cases hk
      rw [if_neg hne]
      rfl
    | some other =>
      obtain rfl := key?_eq_some_iff.1 hk
      simp only [Option.elim_some, Keypad.set, getElem_fin, Vector.getElem_set, Int.natCast_inj]
      split <;> rfl
  | releaseAll =>
    change (Vector.replicate 16 false)[key.val] = false
    exact Vector.getElem_replicate _
  | forget | ask => rfl

theorem latch_of_presses (hsaid : c.sets? key.val = some true) (hreleased : p.held[key] = false) :
    (p.perform c).latch = some key := by
  obtain ⟨value, rfl, hvalue⟩ := sets?_eq_some_iff.1 hsaid
  rw [perform_set, key?_eq_some_iff.2 rfl]
  simp only [Option.elim_some, Keypad.set, hvalue, hreleased]
  rfl

theorem latch_of_empties (h : c.empties = true) : (p.perform c).latch = none := by
  cases c with
  | forget | releaseAll => rfl
  | set | ask => cases h

/-- A call that neither presses a key nor empties the latch leaves it alone. -/
theorem latch_of_calm (hcalm : ∀ key : Key, c.sets? key.val = some true → p.held[key] ≠ false)
    (hkeeps : c.empties = false) : (p.perform c).latch = p.latch := by
  cases c with
  | set k value =>
    rw [perform_set]
    cases hk : key? k with
    | none => rfl
    | some key =>
      obtain rfl := key?_eq_some_iff.1 hk
      refine if_neg fun hpress => ?_
      rw [Bool.and_eq_true, Bool.not_eq_true'] at hpress
      exact hcalm key (sets?_eq_some_iff.2 ⟨value, rfl, hpress.1⟩) hpress.2
  | ask => rfl
  | forget | releaseAll => cases hkeeps

/-! ### Runs -/

/-- A keypad shows what its history says of the keys and of the latch. -/
structure Shows (p : Keypad) (calls : List Call) : Prop where
  held : ∀ key : Key, p.held[key] = saidHeld key.val calls
  latched : ∀ key, p.latch = some key ↔ LastPressed calls key
  empty : p.latch = none ↔ ∀ before key, ¬Pressed calls before key

theorem shows_released : released.Shows [] where
  held key := by
    change (Vector.replicate 16 false)[key.val] = false
    exact Vector.getElem_replicate _
  latched key := iff_of_false nofun fun ⟨_, hpressed, _⟩ => not_pressed_nil hpressed
  empty := iff_of_true rfl fun _ _ => not_pressed_nil

/-- One more call keeps a keypad up to its history. -/
theorem Shows.perform (h : p.Shows calls) (c : Call) : (p.perform c).Shows (calls ++ [c]) := by
  have hheld : ∀ key : Key, (p.perform c).held[key] = saidHeld key.val (calls ++ [c]) := by
    intro key
    rw [held_perform, saidHeld_concat, h.held]
  by_cases hpress : ∃ key : Key, c.sets? key.val = some true ∧ p.held[key] = false
  · obtain ⟨key, hsaid, hreleased⟩ := hpress
    have hlatch := latch_of_presses hsaid hreleased
    rw [h.held] at hreleased
    refine ⟨hheld, fun other => ?_, ?_⟩
    · rw [hlatch, Option.some_inj, lastPressed_of_presses hsaid hreleased]
    · rw [hlatch]
      exact iff_of_false nofun fun hnone =>
        hnone calls key (pressed_concat.2 (.inl ⟨rfl, hsaid, hreleased⟩))
  · have hcalm : ∀ key : Key, c.sets? key.val = some true → p.held[key] ≠ false :=
      fun key hsaid hreleased => hpress ⟨key, hsaid, hreleased⟩
    -- No key is pressed now, so that only presses of before are left, if any.
    have hpressed : ∀ before key, Pressed (calls ++ [c]) before key ↔
        c.empties = false ∧ Pressed calls before key := by
      intro before key
      rw [pressed_concat, or_iff_right]
      rintro ⟨-, hsaid, hreleased⟩
      exact hcalm key hsaid ((h.held key).trans hreleased)
    cases hempties : c.empties with
    | true =>
      have hnone : ∀ before key, ¬Pressed (calls ++ [c]) before key := by
        intro before key
        simp [hpressed, hempties]
      refine ⟨hheld, fun key => ?_, ?_⟩
      · rw [latch_of_empties hempties]
        exact iff_of_false nofun fun ⟨before, hbefore, _⟩ => hnone before key hbefore
      · rw [latch_of_empties hempties]
        exact iff_of_true rfl hnone
    | false =>
      have hsame : ∀ before key, Pressed (calls ++ [c]) before key ↔ Pressed calls before key := by
        intro before key
        rw [hpressed, and_iff_right hempties]
      refine ⟨hheld, fun key => ?_, ?_⟩
      · rw [latch_of_calm hcalm hempties, h.latched]
        simp only [LastPressed, hsame]
      · rw [latch_of_calm hcalm hempties, h.empty]
        simp only [hsame]

theorem shows_performAll (calls : List Call) : (released.performAll calls).Shows calls := by
  induction calls using List.reverseRecOn with
  | nil => exact shows_released
  | append_singleton calls c ih =>
    rw [performAll, List.foldl_append]
    exact ih.perform c

/-- A keypad over a whole run. Whatever calls were made, a key is held if the last value that
    was set for it since all keys were released is true, and any integer asks for the key in its
    low digit. The latch holds the key that was pressed last, a press being a call that changes
    a key from released to pressed, and is empty if no key was pressed since it was last emptied.
    A call for a key that is not on the keypad is refused, and changes nothing. -/
theorem keypad_of_calls (calls : List Call) :
    let p := released.performAll calls
    (∀ k, p.answer (.ask k) = .ok (p, some (saidHeld (k % 16) calls))) ∧
      (∀ key, p.latch = some key ↔ LastPressed calls key) ∧
      (p.latch = none ↔ ∀ before key, ¬Pressed calls before key) ∧
      (∀ k value e, p.answer (.set k value) = .error e ↔ (k < 0 ∨ 15 < k) ∧ e = ⟨k⟩) ∧
      ∀ c e, p.answer c = .error e → p.perform c = p := by
  intro p
  have h : p.Shows calls := shows_performAll calls
  refine ⟨fun k => ?_, h.latched, h.empty, fun k value e => ?_, fun c e hc => ?_⟩
  · have hlow : ((lowKey k).val : Int) = k % 16 :=
      Int.toNat_of_nonneg (Int.emod_nonneg k (by decide))
    rw [answer, isHeld, h.held, hlow]
  · rw [answer, setKey, ← key?_eq_none_iff]
    cases key? k with
    | none => simp [Except.map, eq_comm]
    | some key => simp [Except.map]
  · rw [perform, hc]

end Chip8.Keypad
