import Chip8.Machine.Arithmetic

/-!
# The register file, field by field

What the operations on the register file write, and what they leave alone. The byte
registers, the index register and the program counter are written by separate operations:
only `setPc` moves the counter, only `setIndex` and `addIndex` the index.
-/

namespace Chip8.Registers

variable (r : Registers) (x y : Fin 16) (b : UInt8) (flag : Bool) (k : Int)

/-! ### The program counter -/

@[simp] theorem pc_set : (r.set x b).pc = r.pc := rfl

@[simp] theorem pc_setFlag : (r.setFlag flag).pc = r.pc := rfl

@[simp] theorem pc_setIndex : (r.setIndex k).pc = r.pc := rfl

@[simp] theorem pc_setPc : (r.setPc k).pc = k := rfl

@[simp] theorem pc_setFirst (bytes : List UInt8) : (r.setFirst bytes).pc = r.pc := rfl

@[simp] theorem pc_addByte : (r.addByte x b).pc = r.pc := rfl

@[simp] theorem pc_addReg : (r.addReg x y).pc = r.pc := rfl

@[simp] theorem pc_subtract (a : UInt8) : (r.subtract x a b).pc = r.pc := rfl

@[simp] theorem pc_shiftRight : (r.shiftRight x b).pc = r.pc := rfl

@[simp] theorem pc_shiftLeft : (r.shiftLeft x b).pc = r.pc := rfl

@[simp] theorem pc_addIndex : (r.addIndex flag x).pc = r.pc := by
  cases flag <;> rfl

/-! ### The index register -/

@[simp] theorem i_setFlag : (r.setFlag flag).i = r.i := rfl

@[simp] theorem i_setPc : (r.setPc k).i = r.i := rfl

/-- The index register keeps the low sixteen bits of a value. -/
theorem toNat_i_setIndex (value : Nat) : (r.setIndex value).i.toNat = value % 65536 := by
  simp only [setIndex, UInt16.toNat_ofNat']
  omega

theorem toNat_i_addIndex :
    (r.addIndex flag x).i.toNat = (r.i.toNat + r.v[x].toNat) % 65536 := by
  cases flag <;> exact toNat_i_setIndex r _

/-! ### The byte registers -/

@[simp] theorem v_setPc : (r.setPc k).v = r.v := rfl

@[simp] theorem v_set_self : (r.set x b).v[x] = b := by
  simp [set]

theorem v_set_of_ne {x y : Fin 16} (h : y ≠ x) : (r.set x b).v[y] = r.v[y] := by
  have : x.val ≠ y.val := fun e => h (Fin.ext e.symm)
  simp [set, this]

@[simp] theorem v_setFlag_flag : (r.setFlag flag).v[(15 : Fin 16)] = if flag then 1 else 0 :=
  r.v_set_self 15 _

theorem v_setFlag_of_ne {y : Fin 16} (h : y ≠ 15) : (r.setFlag flag).v[y] = r.v[y] :=
  r.v_set_of_ne _ h

/-- The flag is written last, so that it wins where the result goes to its
    register. -/
@[simp] theorem v_setResult_flag :
    (r.setResult x b flag).v[(15 : Fin 16)] = if flag then 1 else 0 :=
  v_setFlag_flag _ _

theorem v_setResult_self {x : Fin 16} (h : x ≠ 15) : (r.setResult x b flag).v[x] = b :=
  (v_setFlag_of_ne _ _ h).trans (r.v_set_self x b)

theorem v_setResult_of_ne {x y : Fin 16} (hx : y ≠ x) (hflag : y ≠ 15) :
    (r.setResult x b flag).v[y] = r.v[y] :=
  (v_setFlag_of_ne _ _ hflag).trans (r.v_set_of_ne b hx)

/-- The flag tells of an index past the end of memory, if it tells of it at all. -/
theorem v_addIndex_flag :
    (r.addIndex flag x).v[(15 : Fin 16)] =
      if flag then if 0xFFF < r.i.toNat + r.v[x].toNat then 1 else 0 else r.v[(15 : Fin 16)] := by
  cases flag with
  | false => rfl
  | true => simp only [addIndex, if_true, v_setFlag_flag, decide_eq_true_eq, gt_iff_lt]

theorem v_addIndex_of_ne {y : Fin 16} (h : y ≠ 15) : (r.addIndex flag x).v[y] = r.v[y] := by
  cases flag with
  | false => rfl
  | true => exact v_setFlag_of_ne _ _ h

theorem getElem_overwrite_of_le {size start k : Nat} (row : Vector UInt8 size)
    {bytes : List UInt8} (hk : k < size) (h : start + bytes.length ≤ k) :
    (overwrite row start bytes)[k] = row[k] := by
  induction bytes generalizing row start with
  | nil => rfl
  | cons b rest ih =>
    rw [List.length_cons] at h
    have hstart : start < size := by omega
    rw [overwrite, dif_pos hstart, ih _ (by omega), Vector.getElem_set_ne _ _ (by omega)]

/-- The registers past the bytes put into the first ones stay as they are. -/
theorem v_setFirst_of_le {bytes : List UInt8} {k : Fin 16} (h : bytes.length ≤ k.val) :
    (r.setFirst bytes).v[k] = r.v[k] :=
  getElem_overwrite_of_le r.v k.isLt (by omega)

/-! ### The first registers -/

@[simp] theorem length_upTo : (r.upTo x).length = x.val + 1 := by
  rw [upTo, List.length_take, Vector.length_toList]
  omega

theorem getElem_upTo (k : Fin 16) (hk : k.val < (r.upTo x).length) :
    (r.upTo x)[k.val] = r.v[k] := by
  simp only [upTo, List.getElem_take, Vector.getElem_toList, getElem_fin]

theorem upTo_eq_iff {r r' : Registers} {x : Fin 16} :
    r.upTo x = r'.upTo x ↔ ∀ k ≤ x, r.v[k] = r'.v[k] := by
  constructor
  · intro h k hk
    have hlength : k.val < (r.upTo x).length := by
      rw [length_upTo]
      exact Nat.lt_succ_of_le hk
    rw [← getElem_upTo r x k hlength, ← getElem_upTo r' x k (h ▸ hlength)]
    simp only [h]
  · intro h
    refine List.ext_getElem (by rw [length_upTo, length_upTo]) fun k hk hk' => ?_
    have hle : k < x.val + 1 := by rwa [length_upTo] at hk
    have hlt : k < 16 := by omega
    rw [getElem_upTo r x ⟨k, hlt⟩ hk, getElem_upTo r' x ⟨k, hlt⟩ hk']
    exact h ⟨k, hlt⟩ (Nat.le_of_lt_succ hle)

/-- Bytes put into the first registers are in them. -/
theorem upTo_setFirst {bytes : List UInt8} (h : bytes.length = x.val + 1) :
    (r.setFirst bytes).upTo x = bytes := by
  rw [upTo, setFirst, toList_overwrite _ (by omega), List.take_zero, List.nil_append, ← h,
    List.take_left]

end Chip8.Registers
