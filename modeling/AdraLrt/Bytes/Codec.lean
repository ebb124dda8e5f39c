import Mathlib.Logic.Equiv.Defs
import Mathlib.Data.List.Basic
import Mathlib.Algebra.GroupWithZero.Nat

/-!
# Fixed-width codecs

Values written as a fixed number of bytes, as in a packed record: integers with the lowest byte
first, byte strings of a given length, and records of such fields one after another. A codec carries
the proof that what it writes is read back from in front of any bytes, and that what it reads is
what it would have written; records and tags inherit both (`Codec.prod`, `Codec.map`,
`Codec.tagged`).
-/

set_option autoImplicit false

namespace Bytes

/-! ## Little-endian numbers -/

/-- The `n` low bytes of a number, the lowest first. -/
def toLE : Nat → Nat → List UInt8
  | 0, _ => []
  | n + 1, k => UInt8.ofNat k :: toLE n (k / 256)

/-- The number that the bytes stand for. -/
def ofLE : List UInt8 → Nat
  | [] => 0
  | b :: bs => b.toNat + 256 * ofLE bs

@[simp] theorem length_toLE (n k : Nat) : (toLE n k).length = n := by
  induction n generalizing k with
  | zero => rfl
  | succ n ih => rw [toLE, List.length_cons, ih]

theorem ofLE_toLE (n k : Nat) : ofLE (toLE n k) = k % 256 ^ n := by
  induction n generalizing k with
  | zero => rw [toLE, ofLE, Nat.pow_zero, Nat.mod_one]
  | succ n ih =>
      have hbyte : (UInt8.ofNat k).toNat = k % 256 := UInt8.toNat_ofNat' ..
      rw [toLE, ofLE, ih, hbyte, Nat.pow_succ', Nat.mod_mul]

theorem toLE_ofLE (bs : List UInt8) : toLE bs.length (ofLE bs) = bs := by
  induction bs with
  | nil => rfl
  | cons b bs ih =>
      have hlt : b.toNat < 256 := b.toNat_lt
      have hhigh : (b.toNat + 256 * ofLE bs) / 256 = ofLE bs := by omega
      have hlow : UInt8.ofNat (b.toNat + 256 * ofLE bs) = b := by
        apply UInt8.toNat_inj.1
        rw [UInt8.toNat_ofNat']
        omega
      rw [List.length_cons, ofLE, toLE, hhigh, hlow, ih]

theorem ofLE_lt (bs : List UInt8) : ofLE bs < 256 ^ bs.length := by
  have h := ofLE_toLE bs.length (ofLE bs)
  rw [toLE_ofLE] at h
  rw [h]
  exact Nat.mod_lt _ (Nat.pow_pos (by decide))

/-! ## Codecs -/

/-- A way to write values as `size` bytes and to read them from the front of a byte string. -/
structure Codec (α : Type) where
  size : Nat
  encode : α → List UInt8
  decode : List UInt8 → Option α
  length_encode : ∀ x, (encode x).length = size
  decode_append : ∀ x rest, decode (encode x ++ rest) = some x
  prefix_of_decode : ∀ bs x, decode bs = some x → encode x <+: bs

namespace Codec

variable {α β : Type}

/-- A value is read exactly where its bytes stand in front. -/
theorem decode_eq_some_iff (c : Codec α) (bs : List UInt8) (x : α) :
    c.decode bs = some x ↔ c.encode x <+: bs := by
  constructor
  · exact c.prefix_of_decode bs x
  · rintro ⟨rest, rfl⟩
    exact c.decode_append x rest

@[simp] theorem decode_encode (c : Codec α) (x : α) : c.decode (c.encode x) = some x := by
  have h := c.decode_append x []
  rwa [List.append_nil] at h

/-- The bytes of a value are dropped with its size. -/
@[simp] theorem drop_size_append (c : Codec α) (x : α) (rest : List UInt8) :
    (c.encode x ++ rest).drop c.size = rest :=
  List.drop_left' (c.length_encode x)

/-- Byte strings of length `n`. -/
def bytes (n : Nat) : Codec { bs : List UInt8 // bs.length = n } where
  size := n
  encode x := x.1
  decode bs := if h : n ≤ bs.length then some ⟨bs.take n, List.length_take_of_le h⟩ else none
  length_encode x := x.2
  decode_append := by
    rintro ⟨bs, rfl⟩ rest
    rw [dif_pos (by rw [List.length_append]; exact Nat.le_add_right _ _)]
    exact congrArg some (Subtype.ext (List.take_left' rfl))
  prefix_of_decode := by
    intro bs x h
    split at h
    · obtain rfl := Option.some.inj h
      exact List.take_prefix n bs
    · cases h

/-- Unsigned numbers below `256 ^ n`, with the lowest byte first. -/
def numberLE (n : Nat) : Codec (Fin (256 ^ n)) where
  size := n
  encode k := toLE n k
  decode bs :=
    if h : n ≤ bs.length then
      some ⟨ofLE (bs.take n), by
        have hlt := ofLE_lt (bs.take n)
        rwa [List.length_take_of_le h] at hlt⟩
    else none
  length_encode k := length_toLE n k
  decode_append := by
    intro k rest
    have hlen : n ≤ (toLE n k ++ rest).length := by
      rw [List.length_append, length_toLE]
      exact Nat.le_add_right _ _
    rw [dif_pos hlen]
    refine congrArg some (Fin.ext ?_)
    show ofLE ((toLE n k ++ rest).take n) = k
    rw [List.take_left' (length_toLE n k), ofLE_toLE, Nat.mod_eq_of_lt k.isLt]
  prefix_of_decode := by
    intro bs k h
    split at h
    · next hlen =>
        obtain rfl := Option.some.inj h
        have htake := toLE_ofLE (bs.take n)
        rw [List.length_take_of_le hlen] at htake
        rw [show toLE n (ofLE (bs.take n)) = bs.take n from htake]
        exact List.take_prefix n bs
    · cases h

/-- The same bytes, read as another type. -/
def map (c : Codec α) (e : α ≃ β) : Codec β where
  size := c.size
  encode y := c.encode (e.symm y)
  decode bs := (c.decode bs).map e
  length_encode y := c.length_encode _
  decode_append y rest := by
    rw [c.decode_append, Option.map_some, e.apply_symm_apply]
  prefix_of_decode bs y h := by
    obtain ⟨x, hx, rfl⟩ := Option.map_eq_some_iff.1 h
    rw [e.symm_apply_apply]
    exact c.prefix_of_decode bs x hx

/-- Two fields, one after the other. -/
def prod (c : Codec α) (d : Codec β) : Codec (α × β) where
  size := c.size + d.size
  encode x := c.encode x.1 ++ d.encode x.2
  decode bs := do
    let x ← c.decode bs
    let y ← d.decode (bs.drop c.size)
    pure (x, y)
  length_encode x := by
    rw [List.length_append, c.length_encode, d.length_encode]
  decode_append x rest := by
    rw [List.append_assoc, c.decode_append, c.drop_size_append, d.decode_append]
    rfl
  prefix_of_decode := by
    rintro bs ⟨x, y⟩ h
    simp only [Option.bind_eq_bind, Option.bind_eq_some_iff, Option.pure_def, Option.some.injEq,
      Prod.mk.injEq] at h
    obtain ⟨x', hx, y', hy, rfl, rfl⟩ := h
    obtain ⟨rest, rfl⟩ := c.prefix_of_decode bs x' hx
    rw [c.drop_size_append] at hy
    obtain ⟨rest', rfl⟩ := d.prefix_of_decode rest y' hy
    exact ⟨rest', List.append_assoc ..⟩

/-- A value behind a fixed tag; other tags are refused. -/
def tagged (tag : List UInt8) (c : Codec α) : Codec α where
  size := tag.length + c.size
  encode x := tag ++ c.encode x
  decode bs := if bs.take tag.length = tag then c.decode (bs.drop tag.length) else none
  length_encode x := by
    rw [List.length_append, c.length_encode]
  decode_append x rest := by
    rw [List.append_assoc, List.take_left' rfl, if_pos rfl, List.drop_left' rfl, c.decode_append]
  prefix_of_decode := by
    intro bs x h
    split at h
    · next htag =>
        obtain ⟨rest, hrest⟩ := c.prefix_of_decode _ x h
        refine ⟨rest, ?_⟩
        rw [List.append_assoc, hrest]
        nth_rewrite 1 [← htag]
        exact List.take_append_drop tag.length bs
    · cases h

end Codec

end Bytes
