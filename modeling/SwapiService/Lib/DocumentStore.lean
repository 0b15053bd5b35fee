import Mathlib.Data.List.Basic

/-!
# Documents that expire

A document store keeps documents with named fields.  A TTL index names one of the fields:
a monitor that runs from time to time removes every document that has a date in that field
which is too old.  A document without a date in the field is never removed.

## Main definitions

* `Value`, `Document` — documents.
* `Document.set` — `$set`: the given fields replace those of the same name.
* `TtlIndex`, `TtlIndex.monitor` — a TTL index, and its monitor.

## Main results

* `Document.get_set` — the fields after `$set`.
* `TtlIndex.monitor_eq_self` — the monitor removes nothing that has no date in the field.
-/

namespace DocumentStore

variable {κ β : Type*}

/-- The value of a field: an `_id`, a date, or some other data. -/
inductive Value (β : Type*)
  | objectId (n : ℕ)
  | date (ms : ℕ)
  | data (b : β)
  deriving DecidableEq, Repr

/-- A document. -/
structure Document (β : Type*) where
  fields : List (String × Value β)
  deriving DecidableEq, Repr

/-- The value of a field, if the document has it. -/
def Document.get (d : Document β) (name : String) : Option (Value β) := d.fields.lookup name

/-- The document with the fields of `e` in place of its own of the same name. -/
def Document.set (d e : Document β) : Document β :=
  ⟨e.fields ++ d.fields.filter fun f => (e.get f.1).isNone⟩

/-- Looking up a name that a filter lets pass. -/
theorem lookup_filter {l : List (String × Value β)} {p : String → Bool} {name : String}
    (h : p name = true) : (l.filter fun f => p f.1).lookup name = l.lookup name := by
  induction l with
  | nil => rfl
  | cons f l ih =>
    obtain ⟨name', v⟩ := f
    by_cases hname : name = name'
    · subst hname
      rw [List.filter_cons_of_pos (by exact h), List.lookup_cons_self, List.lookup_cons_self]
    · have hne : (name == name') = false := beq_eq_false_iff_ne.mpr hname
      by_cases hp : p name' = true
      · rw [List.filter_cons_of_pos (by exact hp), List.lookup_cons, List.lookup_cons, hne]
        exact ih
      · rw [List.filter_cons_of_neg (by exact hp), List.lookup_cons, hne]
        exact ih

/-- **The fields after `$set`**: the new ones, and the old ones of other names. -/
theorem Document.get_set (d e : Document β) (name : String) :
    (d.set e).get name = (e.get name).or (d.get name) := by
  show (e.fields ++ d.fields.filter _).lookup name = _
  rw [List.lookup_append]
  cases hnew : e.get name with
  | some v =>
    have hlookup : e.fields.lookup name = some v := hnew
    rw [hlookup, Option.some_or, Option.some_or]
  | none =>
    have hlookup : e.fields.lookup name = none := hnew
    have hpass : (fun n => (e.get n).isNone) name = true := by
      show (e.get name).isNone = true
      rw [hnew]
      rfl
    rw [hlookup, Option.none_or, Option.none_or]
    exact lookup_filter (p := fun n => (e.get n).isNone) hpass

/-- A TTL index: the field it is on, and how long after its date a document expires. -/
structure TtlIndex where
  field : String
  expireAfter : ℕ

/-- The document has a date in the field, and it is too old. -/
def TtlIndex.expired (idx : TtlIndex) (now : ℕ) (d : Document β) : Bool :=
  match d.get idx.field with
  | some (.date t) => t + idx.expireAfter < now
  | _ => false

/-- What the monitor leaves of the documents. -/
def TtlIndex.monitor (idx : TtlIndex) (now : ℕ) (docs : κ → Option (Document β)) :
    κ → Option (Document β) := fun k => (docs k).filter fun d => !idx.expired now d

theorem TtlIndex.expired_eq_false {idx : TtlIndex} {now : ℕ} {d : Document β}
    (h : d.get idx.field = none) : idx.expired now d = false := by
  rw [expired, h]

/-- **The monitor removes nothing** when no document has the field. -/
theorem TtlIndex.monitor_eq_self {idx : TtlIndex} {now : ℕ} {docs : κ → Option (Document β)}
    (h : ∀ k d, docs k = some d → d.get idx.field = none) : idx.monitor now docs = docs := by
  funext k
  rw [monitor]
  cases hd : docs k with
  | none => rfl
  | some d =>
    rw [Option.filter_some, expired_eq_false (h k d hd)]
    rfl

end DocumentStore
