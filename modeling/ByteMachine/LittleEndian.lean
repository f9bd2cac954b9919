/-!
Words as bytes, lowest byte first. Reading undoes writing up to the width, and writing
undoes reading.
-/

namespace ByteMachine.LittleEndian

/-- The `width` low bytes of `n`. -/
def encode : Nat → Nat → List UInt8
  | 0, _ => []
  | width + 1, n => UInt8.ofNat n :: encode width (n / 256)

def decode : List UInt8 → Nat
  | [] => 0
  | b :: bs => b.toNat + 256 * decode bs

@[simp] theorem length_encode (width n : Nat) : (encode width n).length = width := by
  induction width generalizing n with
  | zero => rfl
  | succ w ih => simp [encode, ih]

theorem decode_encode (width n : Nat) : decode (encode width n) = n % Nat.pow 256 width := by
  induction width generalizing n with
  | zero => simp [encode, decode, Nat.mod_one]
  | succ w ih =>
    have hp : Nat.pow 256 (w + 1) = 256 * Nat.pow 256 w := Nat.pow_succ'
    rw [encode, decode, ih, hp, UInt8.toNat_ofNat']
    exact (Nat.mod_mul (x := n) (a := 256) (b := Nat.pow 256 w)).symm

theorem decode_lt (bs : List UInt8) : decode bs < Nat.pow 256 bs.length := by
  induction bs with
  | nil => simp [decode]
  | cons b bs ih =>
    have := b.toNat_lt
    have hp : Nat.pow 256 (bs.length + 1) = 256 * Nat.pow 256 bs.length := Nat.pow_succ'
    rw [decode, List.length_cons, hp]
    omega

theorem encode_decode (bs : List UInt8) : encode bs.length (decode bs) = bs := by
  induction bs with
  | nil => rfl
  | cons b bs ih =>
    have := b.toNat_lt
    have hd : decode (b :: bs) / 256 = decode bs := by
      rw [decode]
      omega
    have hb : UInt8.ofNat (decode (b :: bs)) = b := by
      apply UInt8.toNat_inj.1
      rw [UInt8.toNat_ofNat', decode]
      omega
    rw [List.length_cons, encode, hd, ih, hb]

end ByteMachine.LittleEndian
