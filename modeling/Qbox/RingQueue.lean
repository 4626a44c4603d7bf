import Mathlib.Tactic

/-! Queues in a ring of `2^n` cells, kept by two counters modulo `2^(n+1)`: the extra bit
tells a full ring from an empty one. -/
namespace Qbox.RingQueue
open List

/-- How far `prod` is ahead of `cons`, for counters modulo `m`. -/
def distance (m cons prod : ℕ) : ℕ := (prod+(m-cons)) % m

variable {m cons k prod n : ℕ}

section
variable (hc : cons < m)
include hc

lemma distance_add_mod (hk : k < m) : distance m cons ((cons+k) % m) = k := by
  rw [distance,Nat.mod_add_mod,show cons+k+(m-cons) = k+m by omega,Nat.add_mod_right,Nat.mod_eq_of_lt hk]

lemma add_distance_mod (hp : prod < m) : (cons+distance m cons prod) % m = prod := by
  rw [distance,Nat.add_mod_mod,show cons+(prod+(m-cons)) = prod+m by omega,Nat.add_mod_right,Nat.mod_eq_of_lt hp]

omit hc in
lemma distance_lt (hm : 0 < m) (cons prod : ℕ) : distance m cons prod < m := Nat.mod_lt _ hm

lemma distance_self : distance m cons cons = 0 := by
  rw [distance,Nat.add_sub_cancel' hc.le,Nat.mod_self]

lemma distance_succ (hp : prod < m) (hne : cons ≠ prod) :
    distance m ((cons+1) % m) prod+1 = distance m cons prod := by
  have hd := add_distance_mod hc hp
  have hlt := distance_lt (Nat.zero_lt_of_lt hc) cons prod
  obtain ⟨d,hd'⟩ : ∃ d, distance m cons prod = d+1 := by
    refine Nat.exists_eq_succ_of_ne_zero fun h0 => hne ?_
    rw [h0,Nat.add_zero,Nat.mod_eq_of_lt hc] at hd
    exact hd
  rw [hd'] at hd hlt ⊢
  rw [← hd,show cons+(d+1) = cons+1+d by omega,← Nat.mod_add_mod (cons+1),
    distance_add_mod (Nat.mod_lt _ (Nat.zero_lt_of_lt hc)) (by omega)]

lemma distance_add (hp : prod < m) (hk : k ≤ distance m cons prod) :
    distance m ((cons+k) % m) prod = distance m cons prod-k := by
  have hlt := distance_lt (Nat.zero_lt_of_lt hc) cons prod
  have hd := add_distance_mod hc hp
  rw [show cons+distance m cons prod = cons+k+(distance m cons prod-k) by omega,← Nat.mod_add_mod] at hd
  nth_rewrite 1 [← hd]
  exact distance_add_mod (Nat.mod_lt _ (Nat.zero_lt_of_lt hc)) (by omega)

end

lemma cell_ne {i j : ℕ} (cons : ℕ) (hij : i < j) (hj : j < i+2^n) : (cons+i) % 2^n ≠ (cons+j) % 2^n := by
  intro heq
  have hm := Nat.ModEq.add_left_cancel' cons heq
  have hle := Nat.le_of_dvd (by omega) ((Nat.modEq_iff_dvd' hij.le).mp hm)
  omega

lemma succ_ne (p n : ℕ) : p ≠ (p+1) % 2^(n+1) := by
  intro heq
  have hp := Nat.two_pow_pos n
  have hlt := heq ▸ Nat.mod_lt _ (Nat.two_pow_pos _)
  rcases Nat.lt_or_ge (p+1) (2^(n+1)) with h | h
  · rw [Nat.mod_eq_of_lt h] at heq
    omega
  · rw [show p+1 = 2^(n+1) by omega,Nat.mod_self] at heq
    omega

lemma xor_two_pow {b : ℕ} (hb : b < 2^(n+1)) : b ^^^ 2^n = (b+2^n) % 2^(n+1) := by
  refine Nat.eq_of_testBit_eq fun j => ?_
  rw [Nat.testBit_xor,Nat.testBit_two_pow,Nat.testBit_mod_two_pow,Nat.add_comm b]
  rcases lt_trichotomy j n with hj | rfl | hj
  · simp [Nat.testBit_two_pow_add_gt hj,hj.ne',Nat.lt_succ_of_lt hj]
  · simp [Nat.testBit_two_pow_add_eq]
  · have hbi := Nat.testBit_lt_two_pow (hb.trans_le (Nat.pow_le_pow_right two_pos hj))
    simp [hbi,hj.ne,Nat.not_lt_of_ge hj]

variable {R : Type} {n : ℕ} {cell cell' : ℕ → R} {cons prod : ℕ} {pending : List R}

/-- The cells from `cons` to `prod` hold the pending records in order. -/
structure Holds (n : ℕ) (cell : ℕ → R) (cons prod : ℕ) (pending : List R) : Prop where
  cons_lt : cons < 2^(n+1)
  prod_eq : prod = (cons+pending.length) % 2^(n+1)
  length_le : pending.length ≤ 2^n
  cells : ∀ (i : ℕ) (h : i < pending.length), cell ((cons+i) % 2^n) = pending[i]

lemma two_pow_lt (n : ℕ) : 2^n < 2^(n+1) := Nat.pow_lt_pow_right one_lt_two n.lt_succ_self

namespace Holds
lemma empty (hc : cons < 2^(n+1)) : Holds n cell cons cons [] := ⟨hc,(Nat.mod_eq_of_lt hc).symm,Nat.zero_le _,nofun⟩

section
variable (h : Holds n cell cons prod pending)
include h

lemma prod_lt : prod < 2^(n+1) := h.prod_eq ▸ Nat.mod_lt _ (Nat.two_pow_pos _)

lemma distance_eq : distance (2^(n+1)) cons prod = pending.length := by
  rw [h.prod_eq]
  exact distance_add_mod h.cons_lt (h.length_le.trans_lt (two_pow_lt n))

lemma full_iff : prod ^^^ cons = 2^n ↔ pending.length = 2^n := by
  have hxo : prod ^^^ cons = 2^n ↔ prod = (cons+2^n) % 2^(n+1) := by
    rw [← xor_two_pow h.cons_lt]
    constructor
    · intro hx
      rw [← hx,Nat.xor_comm prod,← Nat.xor_assoc,Nat.xor_self,Nat.zero_xor]
    · intro hx
      rw [hx,Nat.xor_comm cons,Nat.xor_assoc,Nat.xor_self,Nat.xor_zero]
  rw [hxo,← h.distance_eq]
  constructor
  · intro hp
    rw [hp,distance_add_mod h.cons_lt (two_pow_lt n)]
  · intro hd
    rw [← hd,add_distance_mod h.cons_lt h.prod_lt]

lemma index_ne (hr : pending.length ≠ 2^n) {i : ℕ}
    (hi : i < pending.length) : (cons+i) % 2^n ≠ prod % 2^n := by
  have hl := h.length_le
  rw [h.prod_eq,Nat.mod_mod_of_dvd _ (pow_dvd_pow 2 n.le_succ)]
  exact cell_ne cons hi (by omega)

lemma congr
    (hc : ∀ i < pending.length, cell' ((cons+i) % 2^n) = cell ((cons+i) % 2^n)) : Holds n cell' cons prod pending :=
  ⟨h.cons_lt,h.prod_eq,h.length_le,fun i hi => (hc i hi).trans (h.cells i hi)⟩

lemma push (hr : pending.length ≠ 2^n) {r : R}
    (hn : cell' (prod % 2^n) = r) (hc : ∀ i < 2^n, i ≠ prod % 2^n → cell' i = cell i) :
    Holds n cell' cons ((prod+1) % 2^(n+1)) (pending++[r]) := by
  refine ⟨h.cons_lt,?_,?_,fun i hi => ?_⟩
  · rw [h.prod_eq,Nat.mod_add_mod,length_append,length_singleton,Nat.add_assoc]
  · rw [length_append,length_singleton]
    have := h.length_le
    omega
  · rw [length_append,length_singleton] at hi
    by_cases hl : i = pending.length
    · subst hl
      rw [h.prod_eq,Nat.mod_mod_of_dvd _ (pow_dvd_pow 2 n.le_succ)] at hn
      simpa using hn
    · have hi' : i < pending.length := by omega
      rw [getElem_append_left hi',← h.cells i hi']
      exact hc _ (Nat.mod_lt _ (Nat.two_pow_pos n)) (h.index_ne hr hi')

lemma advance (hk : k ≤ pending.length) :
    Holds n cell ((cons+k) % 2^(n+1)) prod (pending.drop k) := by
  refine ⟨Nat.mod_lt _ (Nat.two_pow_pos _),?_,?_,fun i hi => ?_⟩
  · rw [length_drop,Nat.mod_add_mod,h.prod_eq,Nat.add_assoc,Nat.add_sub_cancel' hk]
  · rw [length_drop]
    exact (Nat.sub_le _ _).trans h.length_le
  · rw [length_drop] at hi
    rw [getElem_drop,← h.cells (k+i) (by omega),Nat.add_mod _ i,
      Nat.mod_mod_of_dvd _ (pow_dvd_pow 2 n.le_succ),← Nat.add_mod,Nat.add_assoc]

lemma advance_to {v : ℕ} (hv : v < 2^(n+1))
    (hd : distance (2^(n+1)) cons v ≤ distance (2^(n+1)) cons prod) :
    Holds n cell v prod (pending.drop (distance (2^(n+1)) cons v)) := by
  have ha := h.advance (hd.trans_eq h.distance_eq)
  rwa [add_distance_mod h.cons_lt hv] at ha

end

end Holds
end Qbox.RingQueue
