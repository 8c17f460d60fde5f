import Chip8.Proofs.Checks
import Chip8.Proofs.Execution
import Chip8.Proofs.Sprite

/-!
# Guarded accesses

`Machine.execute` computes with bytes and reaches registers, cells and pixels by
positions that exist, so that nothing in it can be refused. Told in integers,
every access is guarded: a register or a cell only takes a value from 0 to 255,
a word is only read inside memory, and only a pixel of the grid is flipped.
Each result must have been brought into its range before it is stored.

* `Guarded`: what an access gives, or why it is refused;
* `Registers.keep`, `Memory.keep`, `Memory.ask`, `Keypad.ask`: single accesses;
* `Drawing.flipRows`, `Memory.storeFirst`, `Memory.loadFirst`: the loops of
  drawing, storing and loading, one access after the other.

Where the value or the position is in its range, each of them gives what the
unguarded operation does.
-/

namespace Chip8

/-- Why an access is refused. -/
inductive Refusal
  | register (e : RegisterError)
  | memory (e : MemoryError)
  | display (e : DisplayError)
  | key (k : Int)

/-- What an access gives. -/
abbrev Guarded := Except Refusal

/-! ### Registers -/

namespace Registers

variable (r : Registers) (x : Fin 16) {value flag : Int} {b : UInt8}

/-- Puts an integer into a register. -/
def keep (value : Int) : Guarded Registers :=
  (r.store x value).mapError .register

/-- Puts a result into a register, then a flag into the flag register. -/
def keepResult (value flag : Int) : Guarded Registers := do
  (← r.keep x value).keep 15 flag

theorem keep_eq (h : value = b.toNat) : r.keep x value = .ok (r.set x b) := by
  rw [keep, store, position?_coe, h, byte?_toNat]
  rfl

theorem keepResult_eq {f : Bool} (h : value = b.toNat) (hf : flag = if f then 1 else 0) :
    r.keepResult x value flag = .ok (r.setResult x b f) := by
  have hflag : flag = (if f then 1 else 0 : UInt8).toNat := by
    rw [hf]
    cases f <;> rfl
  rw [keepResult, keep_eq r x h]
  exact keep_eq _ 15 hflag

end Registers

/-! ### The display -/

namespace Drawing

variable {width height : Nat} (acc : Drawing width height) (edges : Edges) (x y : Int)

/-- Flips the pixel at a position, unless it is clipped. -/
def flipAt : Guarded (Drawing width height) := do
  match ← (acc.display.flip edges x y).mapError .display with
  | none => return acc
  | some next =>
    return ⟨next.display, acc.commands ++ next.commands, acc.collided || next.collided⟩

/-- Flips the pixels of a sprite row in some of its columns. -/
def flipColumns (row : Int) : Drawing width height → List Nat → Guarded (Drawing width height)
  | acc, [] => .ok acc
  | acc, c :: cs => do
    let next ← if Display.rowBit row c then acc.flipAt edges (x + c) y else .ok acc
    flipColumns row next cs

/-- Flips the pixels of a sprite, row by row. -/
def flipRows : Drawing width height → Int → List Int → Guarded (Drawing width height)
  | acc, _, [] => .ok acc
  | acc, y, row :: rows => do
    flipRows (← flipColumns edges x y row acc (List.range 8)) (y + 1) rows

variable {edges x y}

theorem extend_nil : acc.extend [] = acc := by
  simp [extend, Display.toggleAll]

theorem extend_append (first rest : List Int) :
    acc.extend (first ++ rest) = (acc.extend first).extend rest := by
  simp only [extend, Display.toggleAll_append, List.append_assoc, Bool.or_assoc]

section

variable (hx : 0 ≤ x) (hy : 0 ≤ y) (hw : 0 < width) (hh : 0 < height)
include hx hy hw hh

theorem flipAt_eq :
    acc.flipAt edges x y = .ok (acc.extend (Display.locate width height edges x y).toList) := by
  obtain ⟨q, p, -, hloc⟩ | ⟨-, hloc⟩ := Display.locate_cases edges hx hy hw hh
  · have hcell := position?_coe (Display.cellAt q p)
    simp only [flipAt, Display.flip, hloc, hcell, Option.toList_some, extend,
      Display.toggleAll_cons_of_some _ hcell, Display.toggleAll, List.append_nil, Bool.or_false]
    rfl
  · simp only [flipAt, Display.flip, hloc, Option.toList_none, extend_nil]
    rfl

theorem flipColumns_eq (row : Int) (cs : List Nat) :
    flipColumns edges x y row acc cs = .ok (acc.extend (cs.filterMap fun c =>
      if Display.rowBit row c then Display.locate width height edges (x + c) y else none)) := by
  induction cs generalizing acc with
  | nil => rw [flipColumns, List.filterMap_nil, extend_nil]
  | cons c cs ih =>
    have hnext : acc.flipAt edges (x + c) y = _ :=
      flipAt_eq acc (Int.add_nonneg hx (Int.natCast_nonneg c)) hy hw hh
    by_cases hbit : Display.rowBit row c = true
    · -- The pixel is flipped first, or is clipped and names no offset.
      rw [flipColumns, if_pos hbit, hnext]
      refine (ih _).trans ?_
      rw [← extend_append, List.filterMap_cons, if_pos hbit]
      cases Display.locate width height edges (x + c) y <;> rfl
    · rw [flipColumns, if_neg hbit]
      refine (ih _).trans ?_
      rw [List.filterMap_cons, if_neg hbit]

theorem flipRows_eq (rows : List Int) :
    flipRows edges x acc y rows =
      .ok (acc.extend (Display.spriteOffsets width height edges x y rows)) := by
  induction rows generalizing acc y with
  | nil => rw [flipRows, Display.spriteOffsets, extend_nil]
  | cons row rows ih =>
    rw [flipRows, flipColumns_eq acc hx hy hw hh, Display.spriteOffsets, extend_append]
    exact ih _ (Int.add_nonneg hy Int.one_nonneg)

end

end Drawing

/-! ### Memory -/

namespace Memory

variable (memory : Memory standardSize) (r : Registers) (address : Int) {b : UInt8}

/-- The byte that an address falls on. -/
def ask : Guarded UInt8 :=
  (memory.readWrapped address).mapError .memory

/-- Stores an integer where an address falls. -/
def keep (value : Int) : Guarded (Memory standardSize) :=
  (memory.writeWrapped address value).mapError .memory

theorem ask_eq : memory.ask address = .ok (memory.fetch address) := rfl

theorem keep_eq {value : Int} (h : value = b.toNat) :
    memory.keep address value = .ok (memory.put address b) := by
  rw [keep, writeWrapped, dif_neg (by decide), h, byte?_toNat]
  rfl

/-- Stores registers, by their numbers, from an address on. -/
def storeFirst : Memory standardSize → List Nat → Guarded (Memory standardSize)
  | memory, [] => .ok memory
  | memory, k :: ks => do
    let b ← (r.fetch k).mapError .register
    storeFirst (← memory.keep (address + k) b.toNat) ks

/-- Loads registers, by their numbers, from an address on. -/
def loadFirst : Registers → List Nat → Guarded Registers
  | r, [] => .ok r
  | r, k :: ks => do
    let b ← memory.ask (address + k)
    loadFirst (← (r.store k b.toNat).mapError .register) ks

theorem storeFirst_eq {n k : Nat} (h : k + n ≤ 16) :
    storeFirst r address memory (List.range' k n) =
      .ok (memory.putAll (address + k) ((r.v.toList.drop k).take n)) := by
  induction n generalizing memory k with
  | zero => rfl
  | succ n ih =>
    have hk : k < r.v.toList.length := by
      rw [Vector.length_toList]
      omega
    have hfetch : (r.fetch k).mapError Refusal.register = .ok r.v.toList[k] := by
      rw [Registers.fetch, position?_coe ⟨k, by omega⟩, Vector.getElem_toList]
      rfl
    rw [List.drop_eq_getElem_cons hk, List.take_succ_cons, putAll, List.range'_succ, storeFirst,
      hfetch]
    simp only [bind, Except.bind]
    rw [keep_eq _ _ rfl]
    simp only
    rw [ih _ (by omega), Int.natCast_succ, Int.add_assoc]

theorem loadFirst_eq {n k : Nat} (h : k + n ≤ 16) :
    loadFirst memory address r (List.range' k n) =
      .ok { r with v := overwrite r.v k (memory.fetchAll (address + k) n) } := by
  induction n generalizing r k with
  | zero => rfl
  | succ n ih =>
    have hk : k < 16 := by omega
    have hstore (b : UInt8) : (r.store k b.toNat).mapError Refusal.register =
        .ok (r.set ⟨k, hk⟩ b) := by
      rw [Registers.store, position?_coe ⟨k, hk⟩, byte?_toNat]
      rfl
    rw [List.range'_succ, loadFirst, ask_eq]
    simp only [bind, Except.bind, hstore]
    rw [ih _ (by omega), fetchAll_succ, overwrite, dif_pos hk, Int.natCast_succ, Int.add_assoc]
    rfl

/-- The big-endian word at an address, its two cells being in memory. -/
def askWord : Guarded Word :=
  (memory.readWord address).mapError .memory

theorem askWord_eq (h : 0 ≤ address ∧ address ≤ 0xFFE) :
    memory.askWord address =
      .ok (Word.ofBytes (memory.fetch address) (memory.fetch (address + 1))) := by
  have hinside : -1 ≤ address ∧ address + 1 < standardSize := by
    simp only [standardSize]
    omega
  rw [askWord, readWord_eq, if_pos hinside]
  rfl

end Memory

/-! ### The keypad -/

/-- Whether the key that a register selects is held. -/
def Keypad.ask (p : Keypad) (k : Int) : Guarded Bool :=
  match position? 16 (k % 16) with
  | some key => .ok p.held[key]
  | none => .error (.key k)

theorem Keypad.ask_eq (p : Keypad) (k : Int) : p.ask k = .ok (p.isHeld k) := by
  have hkey : ((Keypad.lowKey k).val : Int) = k % 16 := by
    simp only [Keypad.lowKey]
    omega
  have := position?_coe (Keypad.lowKey k)
  rw [hkey] at this
  rw [Keypad.ask, this]
  rfl

end Chip8
