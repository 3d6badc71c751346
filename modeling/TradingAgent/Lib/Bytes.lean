import Mathlib.Data.List.Range
import Mathlib.Data.String.Basic
import Mathlib.Tactic.Ring

/-!
# Bytes

The big-endian bytes of a natural number (`toBytesBig`) and the number of some bytes (`fromBytesBig`) undo each
other where the number fits the width. Parts of bounded length are read back from their length-prefixed bytes
(`lengthPrefixed_inj`). UTF-8 keeps the order of texts (`utf8Bytes_lt`).
-/

/-- `n.to_bytes(width, "big")` -/
def toBytesBig (width n : ℕ) : List UInt8 :=
  (List.range width).map fun i => UInt8.ofNat (n / 256 ^ (width - 1 - i))

/-- `int.from_bytes(bytes, "big")` -/
def fromBytesBig (bytes : List UInt8) : ℕ := bytes.foldl (fun n byte => n * 256 + byte.toNat) 0

@[simp] theorem length_toBytesBig (width n : ℕ) : (toBytesBig width n).length = width := by
  simp [toBytesBig]

theorem toBytesBig_succ (width n : ℕ) : toBytesBig (width + 1) n = toBytesBig width (n / 256) ++ [UInt8.ofNat n] := by
  rw [toBytesBig, List.range_succ, List.map_append, List.map_singleton, toBytesBig]
  congr 1
  · refine List.map_congr_left fun i hi => ?_
    rw [List.mem_range] at hi
    rw [show width + 1 - 1 - i = width - 1 - i + 1 by omega, Nat.div_div_eq_div_mul, pow_succ']
  · simp

theorem fromBytesBig_concat (bytes : List UInt8) (byte : UInt8) :
    fromBytesBig (bytes ++ [byte]) = fromBytesBig bytes * 256 + byte.toNat := by
  rw [fromBytesBig, List.foldl_append]
  rfl

theorem fromBytesBig_toBytesBig {width n : ℕ} (h : n < 256 ^ width) : fromBytesBig (toBytesBig width n) = n := by
  induction width generalizing n with
  | zero =>
    obtain rfl : n = 0 := by simpa using h
    rfl
  | succ width ih =>
    rw [pow_succ] at h
    rw [toBytesBig_succ, fromBytesBig_concat, ih (Nat.div_lt_of_lt_mul (by omega)), UInt8.toNat_ofNat']
    omega

theorem toBytesBig_fromBytesBig (bytes : List UInt8) : toBytesBig bytes.length (fromBytesBig bytes) = bytes := by
  induction bytes using List.reverseRecOn with
  | nil => rfl
  | append_singleton bytes byte ih =>
    have hlt := byte.toNat_lt
    rw [List.length_append, List.length_singleton, toBytesBig_succ, fromBytesBig_concat,
      show (fromBytesBig bytes * 256 + byte.toNat) / 256 = fromBytesBig bytes by omega, ih]
    congr 2
    apply UInt8.toNat_inj.1
    rw [UInt8.toNat_ofNat']
    omega

/-- Every part behind its length. -/
def lengthPrefixed (width : ℕ) (parts : List (List UInt8)) : List UInt8 :=
  parts.flatMap fun part => toBytesBig width part.length ++ part

theorem lengthPrefixed_cons (width : ℕ) (part : List UInt8) (parts : List (List UInt8)) :
    lengthPrefixed width (part :: parts) = toBytesBig width part.length ++ (part ++ lengthPrefixed width parts) := by
  rw [lengthPrefixed, List.flatMap_cons, List.append_assoc]
  rfl

theorem lengthPrefixed_inj {width : ℕ} {xs ys : List (List UInt8)} (hlength : xs.length = ys.length)
    (hx : ∀ part ∈ xs, part.length < 256 ^ width) (hy : ∀ part ∈ ys, part.length < 256 ^ width)
    (h : lengthPrefixed width xs = lengthPrefixed width ys) : xs = ys := by
  induction xs generalizing ys with
  | nil => exact (List.length_eq_zero_iff.1 hlength.symm).symm
  | cons x xs ih =>
    obtain ⟨y, ys, rfl⟩ := List.exists_cons_of_length_eq_add_one hlength.symm
    rw [List.forall_mem_cons] at hx hy
    rw [lengthPrefixed_cons, lengthPrefixed_cons] at h
    obtain ⟨hcount, hrest⟩ := List.append_inj h (by simp)
    have hsame : x.length = y.length := by
      rw [← fromBytesBig_toBytesBig hx.1, hcount, fromBytesBig_toBytesBig hy.1]
    obtain ⟨rfl, hparts⟩ := List.append_inj hrest hsame
    rw [ih (Nat.succ.inj hlength) hx.2 hy.2 hparts]

/-- `text.encode("utf-8")` -/
def utf8 (text : String) : List UInt8 := text.toUTF8.data.toList

theorem utf8_inj {x y : String} (h : utf8 x = utf8 y) : x = y :=
  String.toByteArray_inj.1 (ByteArray.ext (Array.toList_inj.1 h))

def utf8Bytes (text : List Char) : List ℕ :=
  text.flatMap fun c => (String.utf8EncodeChar c).map UInt8.toNat

theorem utf8EncodeChar_lt {c d : Char} (h : c < d) (r r' : List ℕ) :
    (String.utf8EncodeChar c).map UInt8.toNat ++ r < (String.utf8EncodeChar d).map UInt8.toNat ++ r' := by
  have hlt : c.val.toNat < d.val.toNat := h
  have hd : d.val.toNat < 1114112 := by
    rcases d.valid with hd | ⟨-, hd⟩
    · exact hd.trans (by decide)
    · exact hd
  have hdigit (k : ℕ) := (Nat.div_le_div_right (c := k) hlt.le).lt_or_eq
  have h64 := hdigit 64
  have h4096 := hdigit 4096
  unfold String.utf8EncodeChar
  dsimp only
  by_cases hfour : c.val.toNat ≤ 65535
  · rw [if_pos hfour]
    split_ifs <;> simp only [List.map_cons, List.map_nil, List.cons_append, List.nil_append,
      List.cons_lt_cons_iff, UInt8.toNat_ofNat'] <;> omega
  · simp only [show ¬ c.val.toNat ≤ 127 by omega, show ¬ c.val.toNat ≤ 2047 by omega, hfour,
      show ¬ d.val.toNat ≤ 127 by omega, show ¬ d.val.toNat ≤ 2047 by omega, show ¬ d.val.toNat ≤ 65535 by omega,
      if_false, List.map_cons, List.cons_append, List.cons_lt_cons_iff, UInt8.toNat_ofNat']
    rcases hdigit 262144 with h1 | h1 <;> rcases h4096 with h2 | h2 <;> rcases h64 with h3 | h3 <;> omega

theorem utf8Bytes_lt {x y : List Char} (h : x < y) : utf8Bytes x < utf8Bytes y := by
  induction x generalizing y with
  | nil =>
    cases y with
    | nil => exact absurd h (lt_irrefl _)
    | cons d ds =>
      obtain ⟨byte, bytes, heq⟩ := List.exists_cons_of_ne_nil (String.utf8EncodeChar_ne_nil (c := d))
      rw [utf8Bytes, utf8Bytes, List.flatMap_cons, heq]
      exact List.nil_lt_cons _ _
  | cons c cs ih =>
    cases y with
    | nil => exact absurd h (List.not_lt_nil _)
    | cons d ds =>
      rw [utf8Bytes, utf8Bytes, List.flatMap_cons, List.flatMap_cons]
      rcases List.cons_lt_cons_iff.1 h with hlt | ⟨rfl, hlt⟩
      · exact utf8EncodeChar_lt hlt _ _
      · exact List.append_left_lt (ih hlt)
