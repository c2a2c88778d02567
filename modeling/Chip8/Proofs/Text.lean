/-
Texts put together from parts, with a separator between them. A part is told
from what comes behind it by a mark that is not in it, or by its length; and
where the parts are of one width, they stand at multiples of it.
-/
import Mathlib.Data.List.Basic

namespace Chip8.Text

variable {sep : List Char} {xs ys : List (List Char)}

/-! ## What follows the first part -/

/-- What follows the first of some parts with a separator between them. -/
def rest (sep : List Char) (xs : List (List Char)) : List Char :=
  if xs = [] then [] else sep ++ sep.intercalate xs

theorem rest_of_ne_nil (h : xs ≠ []) : rest sep xs = sep ++ sep.intercalate xs := by
  rw [rest, if_neg h]

theorem intercalate_cons (sep x : List Char) (xs : List (List Char)) :
    sep.intercalate (x :: xs) = x ++ rest sep xs := by
  cases xs <;> simp [rest, List.intercalate_cons_cons]

theorem rest_cons (sep x : List Char) (xs : List (List Char)) :
    rest sep (x :: xs) = sep ++ (x ++ rest sep xs) := by
  rw [rest_of_ne_nil (List.cons_ne_nil x xs), intercalate_cons]

theorem rest_append (sep : List Char) (xs ys : List (List Char)) :
    rest sep (xs ++ ys) = rest sep xs ++ rest sep ys := by
  induction xs with
  | nil => rfl
  | cons x xs ih => rw [List.cons_append, rest_cons, rest_cons, ih, List.append_assoc, List.append_assoc]

theorem length_rest (sep : List Char) (xs : List (List Char)) :
    (rest sep xs).length = sep.length * xs.length + xs.flatten.length := by
  induction xs with
  | nil => rfl
  | cons x xs ih =>
    rw [rest_cons, List.length_append, List.length_append, ih, List.length_cons, List.flatten_cons,
      List.length_append, Nat.mul_succ]
    omega

theorem count_intercalate {c : Char} (hsep : c ∉ sep) (xs : List (List Char)) :
    (sep.intercalate xs).count c = xs.flatten.count c := by
  induction xs with
  | nil => rfl
  | cons x xs ih =>
    rw [intercalate_cons, List.count_append, List.flatten_cons, List.count_append, ← ih, rest]
    split
    next h => rw [h]; rfl
    next => rw [List.count_append, List.count_eq_zero_of_not_mem hsep, Nat.zero_add]

/-! ## Parts that end at a mark -/

/-- A part without a mark ends where the mark stands. -/
theorem append_inj_of_not_mem {α : Type} [DecidableEq α] {c : α} {a b u v : List α} (ha : c ∉ a)
    (hb : c ∉ b) (hu : u = [] ∨ u.head? = some c) (hv : v = [] ∨ v.head? = some c)
    (h : a ++ u = b ++ v) : a = b ∧ u = v := by
  have hnone : ∀ w : List α, w = [] ∨ w.head? = some c → w.takeWhile (· ≠ c) = [] := by
    intro w hw
    cases w with
    | nil => rfl
    | cons d w => rcases hw with hw | hw <;> simp_all
  have hfirst : ∀ p w : List α, c ∉ p → w = [] ∨ w.head? = some c →
      (p ++ w).takeWhile (· ≠ c) = p := by
    intro p w hp hw
    rw [List.takeWhile_append_of_pos, hnone w hw, List.append_nil]
    intro d hd
    simpa using fun he : d = c => hp (he ▸ hd)
  have hab : a = b := by rw [← hfirst a u ha hu, h, hfirst b v hb hv]
  subst hab
  exact ⟨rfl, List.append_cancel_left h⟩

theorem not_mem_intercalate {c : Char} {sep : List Char} {xs : List (List Char)} (hsep : c ∉ sep)
    (hxs : ∀ x ∈ xs, c ∉ x) : c ∉ sep.intercalate xs := by
  induction xs with
  | nil => simp
  | cons x xs ih =>
    have hrest := ih fun y hy => hxs y (List.mem_cons_of_mem x hy)
    rw [intercalate_cons, rest, List.mem_append, not_or]
    refine ⟨hxs x List.mem_cons_self, ?_⟩
    split <;> simp [hsep, hrest]

theorem head?_rest (c : Char) (sep : List Char) (xs : List (List Char)) :
    rest (c :: sep) xs = [] ∨ (rest (c :: sep) xs).head? = some c := by
  unfold rest
  split <;> simp

/-- Parts without the separator's first character are told apart in the text
they are put together to. -/
theorem intercalate_inj {c : Char} {sep : List Char} : ∀ {xs ys : List (List Char)},
    (∀ t ∈ xs, c ∉ t ∧ t ≠ []) → (∀ t ∈ ys, c ∉ t ∧ t ≠ []) →
    (c :: sep).intercalate xs = (c :: sep).intercalate ys → xs = ys
  | [], [], _, _, _ => rfl
  | [], y :: ys, _, hy, h => by
    rw [List.intercalate_nil, intercalate_cons] at h
    exact absurd (List.append_eq_nil_iff.1 h.symm).1 (hy y (by simp)).2
  | x :: xs, [], hx, _, h => by
    rw [List.intercalate_nil, intercalate_cons] at h
    exact absurd (List.append_eq_nil_iff.1 h).1 (hx x (by simp)).2
  | x :: xs, y :: ys, hx, hy, h => by
    rw [intercalate_cons, intercalate_cons] at h
    obtain ⟨rfl, hrest⟩ := append_inj_of_not_mem (hx x (by simp)).1 (hy y (by simp)).1
      (head?_rest c sep xs) (head?_rest c sep ys) h
    have hxs : xs = ys := by
      cases xs <;> cases ys
      case nil.nil => rfl
      case nil.cons => simp [rest] at hrest
      case cons.nil => simp [rest] at hrest
      case cons.cons x' xs' y' ys' =>
        have h' : (c :: sep).intercalate (x' :: xs') = (c :: sep).intercalate (y' :: ys') := by
          simpa [rest] using hrest
        exact intercalate_inj (fun t ht => hx t (by simp [ht])) (fun t ht => hy t (by simp [ht])) h'
    rw [hxs]

/-! ## Parts of known lengths -/

/-- Parts of the same lengths are told apart by where they stand. -/
theorem rest_append_inj {sep u v : List Char} {xs ys : List (List Char)}
    (hlength : xs.map List.length = ys.map List.length)
    (h : rest sep xs ++ u = rest sep ys ++ v) : xs = ys ∧ u = v := by
  induction xs generalizing ys with
  | nil =>
    cases ys with
    | nil => exact ⟨rfl, h⟩
    | cons y ys => cases hlength
  | cons x xs ih =>
    cases ys with
    | nil => cases hlength
    | cons y ys =>
      rw [List.map_cons, List.map_cons, List.cons.injEq] at hlength
      obtain ⟨hfirst, hothers⟩ := hlength
      simp only [rest_cons, List.append_assoc] at h
      obtain ⟨hxy, h⟩ := List.append_inj (List.append_cancel_left h) hfirst
      obtain ⟨hxs, huv⟩ := ih hothers h
      exact ⟨by rw [hxy, hxs], huv⟩

theorem intercalate_inj_of_length {sep : List Char} {xs ys : List (List Char)}
    (hlength : xs.map List.length = ys.map List.length)
    (h : sep.intercalate xs = sep.intercalate ys) : xs = ys := by
  have hnil : xs = [] ↔ ys = [] := by
    rw [← List.map_eq_nil_iff (f := List.length), hlength, List.map_eq_nil_iff]
  have hrest : rest sep xs ++ [] = rest sep ys ++ [] := by simp only [rest, hnil, h]
  exact (rest_append_inj hlength hrest).1

/-- The same with parts that are written from something. -/
theorem eq_of_intercalate_map {ι : Type} {sep : String} {f g : ι → String} {ks : List ι}
    (hlength : ∀ k, (f k).length = (g k).length)
    (h : String.intercalate sep (ks.map f) = String.intercalate sep (ks.map g)) :
    ∀ k ∈ ks, f k = g k := by
  have hlist := congrArg String.toList h
  rw [String.toList_intercalate, String.toList_intercalate] at hlist
  have hparts := intercalate_inj_of_length (by simp [String.length_toList, hlength]) hlist
  simp only [List.map_map, List.map_inj_left] at hparts
  intro k hk
  exact String.toList_inj.1 (hparts k hk)

theorem eq_of_join_map {ι : Type} {f g : ι → String} {ks : List ι}
    (hlength : ∀ k, (f k).length = (g k).length)
    (h : String.join (ks.map f) = String.join (ks.map g)) : ∀ k ∈ ks, f k = g k := by
  have hlist := congrArg String.toList h
  rw [String.toList_join, String.toList_join, List.flatMap_def, List.flatMap_def, List.map_map,
    List.map_map] at hlist
  have hparts := List.eq_iff_flatten_eq.2 ⟨hlist, by simp [String.length_toList, hlength]⟩
  intro k hk
  exact String.toList_inj.1 (List.map_inj_left.1 hparts k hk)

theorem length_join_map {ι : Type} {f g : ι → String} {ks : List ι}
    (hlength : ∀ k, (f k).length = (g k).length) :
    (String.join (ks.map f)).length = (String.join (ks.map g)).length := by
  simp [String.length_join, Function.comp_def, hlength]

theorem length_intercalate_map {ι : Type} {sep : String} {f g : ι → String} {ks : List ι}
    (hlength : ∀ k, (f k).length = (g k).length) :
    (String.intercalate sep (ks.map f)).length = (String.intercalate sep (ks.map g)).length := by
  cases ks with
  | nil => rfl
  | cons k ks =>
    rw [← String.length_toList, ← String.length_toList, String.toList_intercalate,
      String.toList_intercalate]
    simp [intercalate_cons, length_rest, Function.comp_def, String.length_toList, hlength]

/-! ## Parts of one width -/

theorem length_rest_of_width {w : Nat} (hwidth : ∀ x ∈ xs, x.length = w) :
    (rest sep xs).length = (sep.length + w) * xs.length := by
  have hflatten : xs.flatten.length = w * xs.length := by
    induction xs with
    | nil => rfl
    | cons x xs ih =>
      rw [List.flatten_cons, List.length_append, hwidth x List.mem_cons_self, List.length_cons,
        Nat.mul_succ, ih fun y hy => hwidth y (List.mem_cons_of_mem x hy), Nat.add_comm]
  rw [length_rest, hflatten, Nat.add_mul]

/-- A part stands where those before it end. -/
theorem getElem?_rest {w k q : Nat} {x : List Char} (hwidth : ∀ x ∈ xs, x.length = w)
    (hx : xs[k]? = some x) (hq : q < w) :
    (rest sep xs)[(sep.length + w) * k + (sep.length + q)]? = x[q]? := by
  induction xs generalizing k with
  | nil => cases hx
  | cons y ys ih =>
    have hy := hwidth y List.mem_cons_self
    rw [rest_cons]
    cases k with
    | zero =>
      cases hx
      rw [Nat.mul_zero, Nat.zero_add, List.getElem?_append_right (Nat.le_add_right _ _),
        Nat.add_sub_cancel_left, List.getElem?_append_left (by omega)]
    | succ k =>
      have hbefore : (sep.length + w) * (k + 1) + (sep.length + q) =
          sep.length + (w + ((sep.length + w) * k + (sep.length + q))) := by
        rw [Nat.mul_succ]
        omega
      rw [hbefore, List.getElem?_append_right (Nat.le_add_right _ _), Nat.add_sub_cancel_left, ← hy,
        List.getElem?_append_right (Nat.le_add_right _ _), Nat.add_sub_cancel_left, hy]
      exact ih (fun x hx => hwidth x (List.mem_cons_of_mem y hx)) hx

theorem getElem?_intercalate {w k q : Nat} {x : List Char} (hwidth : ∀ x ∈ xs, x.length = w)
    (hx : xs[k]? = some x) (hq : q < w) :
    (sep.intercalate xs)[(sep.length + w) * k + q]? = x[q]? := by
  have hxs : xs ≠ [] := by
    intro h
    rw [h] at hx
    cases hx
  rw [← getElem?_rest hwidth hx hq, rest_of_ne_nil hxs, Nat.add_left_comm,
    List.getElem?_append_right (Nat.le_add_right _ _), Nat.add_sub_cancel_left]

end Chip8.Text
