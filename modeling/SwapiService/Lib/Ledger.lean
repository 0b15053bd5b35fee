import Mathlib.Logic.Function.Basic
import Mathlib.Logic.Relation

/-!
# Ledgers

A ledger of forms: a form is opened with a header, its entries are listed once and for
all, and each entry is filled in at most once.  A form also has a mark, which may be
changed at any time.  Nothing is ever taken back, so a ledger extends all earlier ones.

## Main definitions

* `Entry`, `Form`, `Ledger` — a ledger over any types of keys, headers, marks, labels
  and values.
* `Ledger.Next` — what can happen to a ledger.
* `Form.Extends`, `Ledger.Extends` — a later ledger says all that an earlier one did,
  the marks apart.
* `Ledger.unfilled` — the ledger with nothing filled in.

## Main results

* `Ledger.extends_of_next`, `Ledger.extends_of_star` — what happens to a ledger only
  extends it.
* `Ledger.next_unfilled` — with nothing filled in, a ledger is still a ledger.
-/

namespace Ledgers

open Function Relation

variable {κ η μ lab ω : Type*}

/-- An entry: its label, and its value once it has been filled in. -/
structure Entry (lab ω : Type*) where
  label : lab
  value : Option ω
  deriving DecidableEq

/-- A form: its header, its mark, and its entries by their keys. -/
structure Form (κ η μ lab ω : Type*) where
  header : η
  mark : μ
  entries : κ → Option (Entry lab ω)

/-- The forms by their keys. -/
abbrev Ledger (κ η μ lab ω : Type*) := κ → Option (Form κ η μ lab ω)

/-- What can happen to a ledger: a form is opened; the entries of a form that has none
are listed, under keys that no form has used; an entry is filled in; a mark changes. -/
inductive Ledger.Next [DecidableEq κ] : Ledger κ η μ lab ω → Ledger κ η μ lab ω → Prop
  | opens {l : Ledger κ η μ lab ω} {k : κ} (header : η) (mark : μ) (hnew : l k = none) :
      Next l (update l k (some ⟨header, mark, fun _ => none⟩))
  | lists {l : Ledger κ η μ lab ω} {k : κ} {f : Form κ η μ lab ω}
      (entries : κ → Option (Entry lab ω)) (hf : l k = some f) (hempty : ∀ i, f.entries i = none)
      (hunused : ∀ i, entries i ≠ none → ∀ k' f', l k' = some f' → f'.entries i = none) :
      Next l (update l k (some { f with entries }))
  | fills {l : Ledger κ η μ lab ω} {k i : κ} {f : Form κ η μ lab ω} {e : Entry lab ω} (v : ω)
      (hf : l k = some f) (he : f.entries i = some e) (hopen : e.value = none) :
      Next l (update l k (some
        { f with entries := update f.entries i (some { e with value := some v }) }))
  | marks {l : Ledger κ η μ lab ω} {k : κ} {f : Form κ η μ lab ω} (mark : μ) (hf : l k = some f) :
      Next l (update l k (some { f with mark }))

/-! ### What is never taken back -/

/-- The later entry has the label of the earlier one, and its value if it had one. -/
structure Entry.Extends (e e' : Entry lab ω) : Prop where
  label : e'.label = e.label
  value : ∀ v, e.value = some v → e'.value = some v

/-- The later form has the header of the earlier one, and its entries, unless these
were still to be listed. -/
structure Form.Extends (f f' : Form κ η μ lab ω) : Prop where
  header : f'.header = f.header
  entry : ∀ i e, f.entries i = some e → ∃ e', f'.entries i = some e' ∧ e.Extends e'
  listed : (∃ i, f.entries i ≠ none) → ∀ i, f.entries i = none → f'.entries i = none

/-- The later ledger has the forms of the earlier one. -/
def Ledger.Extends (l l' : Ledger κ η μ lab ω) : Prop :=
  ∀ k f, l k = some f → ∃ f', l' k = some f' ∧ f.Extends f'

theorem Entry.Extends.refl (e : Entry lab ω) : e.Extends e := ⟨rfl, fun _ h => h⟩

theorem Entry.Extends.trans {e e' e'' : Entry lab ω} (h : e.Extends e') (h' : e'.Extends e'') :
    e.Extends e'' :=
  ⟨h'.label.trans h.label, fun v hv => h'.value v (h.value v hv)⟩

theorem Form.Extends.refl (f : Form κ η μ lab ω) : f.Extends f :=
  ⟨rfl, fun _ e he => ⟨e, he, .refl e⟩, fun _ _ h => h⟩

theorem Form.Extends.trans {f f' f'' : Form κ η μ lab ω} (h : f.Extends f')
    (h' : f'.Extends f'') : f.Extends f'' where
  header := h'.header.trans h.header
  entry i e he := by
    obtain ⟨e', he', hext⟩ := h.entry i e he
    obtain ⟨e'', he'', hext'⟩ := h'.entry i e' he'
    exact ⟨e'', he'', hext.trans hext'⟩
  listed hlisted i hi := by
    refine h'.listed ?_ i (h.listed hlisted i hi)
    -- What is listed stays listed.
    obtain ⟨j, hj⟩ := hlisted
    obtain ⟨e, he⟩ := Option.ne_none_iff_exists'.mp hj
    obtain ⟨e', he', -⟩ := h.entry j e he
    exact ⟨j, by rw [he']; exact Option.some_ne_none e'⟩

theorem Ledger.Extends.refl (l : Ledger κ η μ lab ω) : Ledger.Extends l l :=
  fun _ f hf => ⟨f, hf, .refl f⟩

theorem Ledger.Extends.trans {l l' l'' : Ledger κ η μ lab ω} (h : Ledger.Extends l l')
    (h' : Ledger.Extends l' l'') : Ledger.Extends l l'' := by
  intro k f hf
  obtain ⟨f', hf', hext⟩ := h k f hf
  obtain ⟨f'', hf'', hext'⟩ := h' k f' hf'
  exact ⟨f'', hf'', hext.trans hext'⟩

section Steps

variable [DecidableEq κ] {l l' : Ledger κ η μ lab ω} {k : κ} {f : Form κ η μ lab ω}

/-- Replacing a form by one that extends it extends the ledger. -/
theorem Ledger.extends_update (hf : l k = some f) {f' : Form κ η μ lab ω} (h : f.Extends f') :
    Ledger.Extends l (update l k (some f')) := by
  intro k' g hg
  by_cases hk : k' = k
  · subst hk
    obtain rfl := Option.some.inj (hf.symm.trans hg)
    exact ⟨f', update_self _ _ _, h⟩
  · exact ⟨g, by rw [update_of_ne hk, hg], .refl g⟩

/-- **Whatever happens to a ledger extends it.** -/
theorem Ledger.extends_of_next (h : Ledger.Next l l') : Ledger.Extends l l' := by
  cases h with
  | @opens k header mark hnew =>
    intro k' f hf
    have hk : k' ≠ k := by
      rintro rfl
      rw [hnew] at hf
      cases hf
    exact ⟨f, by rw [update_of_ne hk, hf], .refl f⟩
  | @lists k f entries hf hempty hunused =>
    refine Ledger.extends_update hf ⟨rfl, fun i e he => ?_, fun hlisted => ?_⟩
    · rw [hempty i] at he
      cases he
    · obtain ⟨i, hi⟩ := hlisted
      exact absurd (hempty i) hi
  | @fills k i f e v hf he hopen =>
    have hext : e.Extends { e with value := some v } := by
      refine ⟨rfl, fun w hw => ?_⟩
      rw [hopen] at hw
      cases hw
    refine Ledger.extends_update hf ⟨rfl, fun j d hd => ?_, fun _ j hj => ?_⟩
    · by_cases hji : j = i
      · subst hji
        obtain rfl := Option.some.inj (he.symm.trans hd)
        exact ⟨_, update_self _ _ _, hext⟩
      · exact ⟨d, (update_of_ne hji _ _).trans hd, .refl d⟩
    · have hji : j ≠ i := by
        rintro rfl
        rw [he] at hj
        cases hj
      exact (update_of_ne hji _ _).trans hj
  | @marks k f mark hf =>
    exact Ledger.extends_update hf ⟨rfl, fun _ e he => ⟨e, he, .refl e⟩, fun _ _ hi => hi⟩

/-- **A ledger extends all those before it.** -/
theorem Ledger.extends_of_star (h : ReflTransGen Ledger.Next l l') : Ledger.Extends l l' := by
  induction h with
  | refl => exact .refl l
  | tail _ hnext ih => exact ih.trans (Ledger.extends_of_next hnext)

end Steps

/-! ### Without the values -/

/-- The entry as it was listed. -/
def Entry.unfilled (e : Entry lab ω) : Entry lab ω := { e with value := none }

/-- The form with nothing filled in. -/
def Form.unfilled (f : Form κ η μ lab ω) : Form κ η μ lab ω :=
  { f with entries := fun i => (f.entries i).map Entry.unfilled }

/-- The ledger with nothing filled in. -/
def Ledger.unfilled (l : Ledger κ η μ lab ω) : Ledger κ η μ lab ω := fun k =>
  (l k).map Form.unfilled

theorem Form.unfilled_eq_none {f : Form κ η μ lab ω} {i : κ} :
    f.unfilled.entries i = none ↔ f.entries i = none :=
  Option.map_eq_none_iff

section Unfilled

variable [DecidableEq κ] {l l' : Ledger κ η μ lab ω}

theorem Ledger.unfilled_update (l : Ledger κ η μ lab ω) (k : κ) (f : Form κ η μ lab ω) :
    Ledger.unfilled (update l k (some f)) = update (Ledger.unfilled l) k (some f.unfilled) := by
  funext k'
  by_cases hk : k' = k
  · subst hk
    simp [unfilled]
  · rw [update_of_ne hk, unfilled, unfilled, update_of_ne hk]

/-- **With nothing filled in, a ledger is still a ledger**: to fill an entry in changes
nothing then. -/
theorem Ledger.next_unfilled (h : Ledger.Next l l') :
    Ledger.unfilled l' = Ledger.unfilled l ∨
      Ledger.Next (Ledger.unfilled l) (Ledger.unfilled l') := by
  have hform : ∀ {k f}, l k = some f → Ledger.unfilled l k = some f.unfilled := by
    intro k f hf
    rw [unfilled, hf, Option.map_some]
  cases h with
  | @opens k header mark hnew =>
    rw [unfilled_update]
    exact .inr (.opens header mark (by rw [unfilled, hnew, Option.map_none]))
  | @lists k f entries hf hempty hunused =>
    rw [unfilled_update]
    refine .inr (.lists (f := f.unfilled) _ (hform hf)
      (fun i => Form.unfilled_eq_none.mpr (hempty i)) ?_)
    intro i hi k' f' hf'
    obtain ⟨g, hg, rfl⟩ := Option.map_eq_some_iff.mp hf'
    have hlisted : entries i ≠ none := fun hnone => hi (Option.map_eq_none_iff.mpr hnone)
    exact Form.unfilled_eq_none.mpr (hunused i hlisted k' g hg)
  | @fills k i f e v hf he hopen =>
    left
    have hsame : Form.unfilled { f with
        entries := update f.entries i (some { e with value := some v }) } = f.unfilled := by
      rw [Form.unfilled, Form.unfilled]
      refine congrArg (Form.mk f.header f.mark) (funext fun j => ?_)
      show Option.map _ (update f.entries i (some { e with value := some v }) j) = _
      by_cases hj : j = i
      · subst hj
        rw [update_self, he, Option.map_some, Option.map_some]
        rfl
      · rw [update_of_ne hj]
    rw [unfilled_update, hsame]
    exact update_eq_self_iff.mpr (hform hf).symm
  | @marks k f mark hf =>
    rw [unfilled_update]
    exact .inr (.marks mark (hform hf))

end Unfilled

end Ledgers
