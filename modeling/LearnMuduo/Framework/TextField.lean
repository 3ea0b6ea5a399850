import LearnMuduo.Framework.Numeral
import Mathlib.Data.List.Lex

/-!
# Fields of a text

A text that is made of fields of fixed widths, each of which sorts as its value does, sorts as the
values of the fields do, the first one first. Numbers that are padded in front to a width are such
fields, if the padding sorts before the digit 1.
-/

namespace Framework

variable {α : Type*} [LinearOrder α]

theorem append_lt_append_iff {x x' y y' : List α} (h : x.length = x'.length) :
    x ++ y < x' ++ y' ↔ x < x' ∨ x = x' ∧ y < y' := by
  induction x generalizing x' with
  | nil =>
      cases x' with
      | nil => simp
      | cons a' x' => cases h
  | cons a x ih =>
      cases x' with
      | nil => cases h
      | cons a' x' =>
          have hlength := Nat.succ.inj h
          simp only [List.cons_append, List.cons_lt_cons_iff, ih hlength, List.cons.injEq]
          tauto

theorem append_lt_append_iff_of_lt_iff {β : Type*} [LinearOrder β] {a a' : β}
    {x x' y y' : List α} (hlength : x.length = x'.length) (hlt : x < x' ↔ a < a')
    (hgt : x' < x ↔ a' < a) (heq : a = a' → x = x') :
    x ++ y < x' ++ y' ↔ a < a' ∨ a = a' ∧ y < y' := by
  have hsame : x = x' ↔ a = a' := by
    constructor
    · rintro rfl
      rcases lt_trichotomy a a' with h | h | h
      · exact absurd (hlt.mpr h) (lt_irrefl x)
      · exact h
      · exact absurd (hgt.mpr h) (lt_irrefl x)
    · exact heq
  rw [append_lt_append_iff hlength, hlt, hsame]

section Related

variable {β γ : Type*} {R : β → γ → Prop} {xs : List β} {ys : List γ}

theorem exists_of_forall₂_of_mem (h : List.Forall₂ R xs ys) {y : γ} (hy : y ∈ ys) :
    ∃ x ∈ xs, R x y := by
  induction h with
  | nil => cases hy
  | @cons x y' xs ys hxy hrest ih =>
      rcases List.mem_cons.mp hy with rfl | hy'
      · exact ⟨x, List.mem_cons_self .., hxy⟩
      · obtain ⟨x', hx', hxy'⟩ := ih hy'
        exact ⟨x', List.mem_cons_of_mem _ hx', hxy'⟩

theorem pairwise_of_forall₂ {S : β → β → Prop} {T : γ → γ → Prop}
    (hlift : ∀ x x' y y', R x y → R x' y' → S x x' → T y y') (h : List.Forall₂ R xs ys)
    (hxs : xs.Pairwise S) : ys.Pairwise T := by
  induction h with
  | nil => exact .nil
  | @cons x y xs ys hxy hrest ih =>
      obtain ⟨hx, hxs'⟩ := List.pairwise_cons.mp hxs
      refine .cons ?_ (ih hxs')
      intro y' hy'
      obtain ⟨x', hx', hxy'⟩ := exists_of_forall₂_of_mem hrest hy'
      exact hlift x x' y y' hxy hxy' (hx x' hx')

end Related

section Padded

variable {b w n n' : Nat} {pad : α} {digit : Nat → α}

/-- The numeral of `n`, padded in front. -/
def padded (b w : Nat) (pad : α) (digit : Nat → α) (n : Nat) : List α :=
  ((numeral b n).map digit).leftpad w pad

/-- The same with nothing but padding for 0, as it stands in front of a last digit. -/
def leading (b w : Nat) (pad : α) (digit : Nat → α) (n : Nat) : List α :=
  if n = 0 then List.replicate w pad else padded b w pad digit n

omit [LinearOrder α] in
theorem leftpad_append_singleton (l : List α) (w : Nat) (pad a : α) :
    (l ++ [a]).leftpad (w + 1) pad = l.leftpad w pad ++ [a] := by
  simp [List.leftpad]

omit [LinearOrder α] in
theorem padded_succ (hb : 1 < b) (w n : Nat) :
    padded b (w + 1) pad digit n = leading b w pad digit (n / b) ++ [digit (n % b)] := by
  rw [leading]
  by_cases hn : n < b
  · rw [if_pos (Nat.div_eq_of_lt hn), padded, numeral_of_lt hn, Nat.mod_eq_of_lt hn]
    simp [List.leftpad]
  · have hquotient : n / b ≠ 0 := (Nat.div_pos (Nat.not_lt.mp hn) (by omega)).ne'
    rw [if_neg hquotient, padded, numeral_of_le hb (Nat.not_lt.mp hn), List.map_append,
      List.map_singleton, leftpad_append_singleton]
    rfl

omit [LinearOrder α] in
theorem leading_succ (hb : 1 < b) (w n : Nat) :
    leading b (w + 1) pad digit n =
      leading b w pad digit (n / b) ++ [if n = 0 then pad else digit (n % b)] := by
  by_cases hn : n = 0
  · subst hn
    rw [Nat.zero_div, if_pos rfl, leading, leading, if_pos rfl, if_pos rfl, List.replicate_succ']
  · rw [if_neg hn, ← padded_succ hb, leading, if_neg hn]

omit [LinearOrder α] in
theorem length_leading (hb : 1 < b) (h : n < b ^ w) : (leading b w pad digit n).length = w := by
  induction w generalizing n with
  | zero =>
      have hn : n = 0 := by simpa using h
      rw [leading, if_pos hn, List.length_replicate]
  | succ w ih =>
      have hquotient : n / b < b ^ w := by
        rw [Nat.div_lt_iff_lt_mul (by omega), ← Nat.pow_succ]
        exact h
      rw [leading_succ hb, List.length_append, ih hquotient, List.length_singleton]

omit [LinearOrder α] in
theorem length_padded (hb : 1 < b) (hw : 0 < w) (h : n < b ^ w) :
    (padded b w pad digit n).length = w := by
  rw [padded, List.length_leftpad, List.length_map,
    Nat.max_eq_left (length_numeral_le hb hw h)]

theorem div_lt_pow (hb : 1 < b) (h : n < b ^ (w + 1)) : n / b < b ^ w := by
  rw [Nat.div_lt_iff_lt_mul (by omega), ← Nat.pow_succ]
  exact h

theorem div_lt_or_mod_lt (h : n < n') : n / b < n' / b ∨ n / b = n' / b ∧ n % b < n' % b := by
  rcases Nat.lt_or_eq_of_le (Nat.div_le_div_right (c := b) h.le) with hlt | heq
  · exact Or.inl hlt
  · have hn := Nat.div_add_mod n b
    have hn' := Nat.div_add_mod n' b
    rw [heq] at hn
    exact Or.inr ⟨heq, by omega⟩

variable (hb : 1 < b) (hdigit : ∀ d d', d < d' → d' < b → digit d < digit d') (hpad : pad < digit 1)

include hb hdigit hpad

theorem leading_lt (h : n < n') (hn' : n' < b ^ w) :
    leading b w pad digit n < leading b w pad digit n' := by
  induction w generalizing n n' with
  | zero =>
      rw [Nat.pow_zero] at hn'
      omega
  | succ w ih =>
      have hquotient := div_lt_pow hb hn'
      have hquotient' := div_lt_pow hb (h.trans hn')
      have hlength : (leading b w pad digit (n / b)).length =
          (leading b w pad digit (n' / b)).length := by
        rw [length_leading hb hquotient, length_leading hb hquotient']
      have hlast : n' ≠ 0 := by
        omega
      rw [leading_succ hb, leading_succ hb, if_neg hlast, append_lt_append_iff hlength]
      rcases div_lt_or_mod_lt (b := b) h with hlt | ⟨heq, hmod⟩
      · exact Or.inl (ih hlt hquotient)
      · refine Or.inr ⟨by rw [heq], List.cons_lt_cons_iff.mpr (Or.inl ?_)⟩
        have hmod' := Nat.mod_lt n' (Nat.zero_lt_of_lt hb)
        split
        · rcases Nat.lt_or_eq_of_le (Nat.succ_le_of_lt (Nat.zero_lt_of_lt hmod)) with hone | hone
          · exact hpad.trans (hdigit 1 _ hone hmod')
          · exact hone ▸ hpad
        · exact hdigit _ _ hmod hmod'

theorem padded_lt (hw : 0 < w) (h : n < n') (hn' : n' < b ^ w) :
    padded b w pad digit n < padded b w pad digit n' := by
  cases w with
  | zero => omega
  | succ w =>
      have hquotient := div_lt_pow hb hn'
      have hquotient' := div_lt_pow hb (h.trans hn')
      have hlength : (leading b w pad digit (n / b)).length =
          (leading b w pad digit (n' / b)).length := by
        rw [length_leading hb hquotient, length_leading hb hquotient']
      rw [padded_succ hb, padded_succ hb, append_lt_append_iff hlength]
      rcases div_lt_or_mod_lt (b := b) h with hlt | ⟨heq, hmod⟩
      · exact Or.inl (leading_lt hb hdigit hpad hlt hquotient)
      · refine Or.inr ⟨by rw [heq], List.cons_lt_cons_iff.mpr (Or.inl ?_)⟩
        exact hdigit _ _ hmod (Nat.mod_lt n' (Nat.zero_lt_of_lt hb))

end Padded

/-- A field sorts as its value does. -/
structure TextField (α : Type*) [LinearOrder α] where
  width : Nat
  bound : Nat
  render : Nat → List α
  length_render : ∀ v, v < bound → (render v).length = width
  render_lt : ∀ v v', v < v' → v' < bound → render v < render v'

namespace TextField

variable {f : TextField α} {fs : List (TextField α)} {v v' : Nat} {vs vs' : List Nat}

theorem render_lt_iff (hv : v < f.bound) (hv' : v' < f.bound) :
    f.render v < f.render v' ↔ v < v' := by
  constructor
  · intro hlt
    by_contra hnot
    rcases Nat.lt_or_eq_of_le (Nat.not_lt.mp hnot) with hgt | rfl
    · exact lt_asymm hlt (f.render_lt v' v hgt hv)
    · exact lt_irrefl _ hlt
  · exact fun hlt => f.render_lt v v' hlt hv'

theorem render_inj (hv : v < f.bound) (hv' : v' < f.bound) (h : f.render v = f.render v') :
    v = v' := by
  rcases Nat.lt_trichotomy v v' with hlt | heq | hgt
  · exact absurd h (f.render_lt v v' hlt hv').ne
  · exact heq
  · exact absurd h (f.render_lt v' v hgt hv).ne'

/-- A padded number with some text in front. -/
def number (sep : List α) (b w : Nat) (pad : α) (digit : Nat → α) (hb : 1 < b) (hw : 0 < w)
    (hdigit : ∀ d d', d < d' → d' < b → digit d < digit d') (hpad : pad < digit 1) :
    TextField α where
  width := sep.length + w
  bound := b ^ w
  render n := sep ++ padded b w pad digit n
  length_render n hn := by rw [List.length_append, length_padded hb hw hn]
  render_lt n n' h hn' :=
    (append_lt_append_iff rfl).mpr (Or.inr ⟨rfl, padded_lt hb hdigit hpad hw h hn'⟩)

/-- The text of some values, each in its field. -/
def text : List (TextField α) → List Nat → List α
  | f :: fs, v :: vs => f.render v ++ text fs vs
  | _, _ => []

/-- The values are those of the fields. -/
def Fit (fs : List (TextField α)) (vs : List Nat) : Prop :=
  List.Forall₂ (fun f v => v < f.bound) fs vs

theorem length_text (h : Fit fs vs) : (text fs vs).length = (fs.map width).sum := by
  induction h with
  | nil => rfl
  | @cons f v fs vs hv hvs ih =>
      rw [text, List.length_append, f.length_render v hv, ih, List.map_cons, List.sum_cons]

theorem text_append {gs : List (TextField α)} {ws : List Nat} (h : Fit fs vs) :
    text (fs ++ gs) (vs ++ ws) = text fs vs ++ text gs ws := by
  induction h with
  | nil => rfl
  | cons hv hvs ih => rw [List.cons_append, List.cons_append, text, text, ih, List.append_assoc]

/-- Texts sort as their values do. -/
theorem text_lt_iff (h : Fit fs vs) (h' : Fit fs vs') : text fs vs < text fs vs' ↔ vs < vs' := by
  induction h generalizing vs' with
  | nil =>
      cases h'
      exact iff_of_false (List.lt_irrefl _) (List.lt_irrefl _)
  | @cons f v fs vs hv hvs ih =>
      cases h' with
      | @cons _ v' _ vs' hv' hvs' =>
          have hlength := (f.length_render v hv).trans (f.length_render v' hv').symm
          rw [text, text, append_lt_append_iff hlength, render_lt_iff hv hv', ih hvs',
            List.cons_lt_cons_iff]
          constructor
          · rintro (hlt | ⟨heq, hlt⟩)
            · exact Or.inl hlt
            · exact Or.inr ⟨render_inj hv hv' heq, hlt⟩
          · rintro (hlt | ⟨rfl, hlt⟩)
            · exact Or.inl hlt
            · exact Or.inr ⟨rfl, hlt⟩

end TextField

end Framework
