import AffineSwarm.Json.Record
import AffineSwarm.Proofs.Json.RoundTrip

/-!
# Fields of records

What is written into a field can be written, and the reader of the field gets it back: a natural
number or an integer as long as it has no more bits than the field, a text always. An object
gives the value of each of its fields if no two of them have the same name
(`fields?_ofFields`).
-/

namespace AffineSwarm.Json

-- ---------------------------------------------------------------------------
-- Values of fields
-- ---------------------------------------------------------------------------

theorem isPrintable_ofNat (n : Nat) : (ofNat n).isPrintable = true := by
  rw [ofNat, isPrintable, beq_iff_eq]
  exact scanNumber_digitText n

theorem isPrintable_ofInt (n : Int) : (ofInt n).isPrintable = true := by
  rw [ofInt, isPrintable, beq_iff_eq]
  exact scanNumber_intText n

theorem isPrintable_ofText (s : String) : (ofText s).isPrintable = true := rfl

theorem unsigned?_ofNat {width n : Nat} (h : n < 1 <<< width) :
    unsigned? width (ofNat n) = some n := by
  have hn : integer? (Decimal.digitText n).toList = some (.ofNat n) := integer?_digitText n
  rw [ofNat, unsigned?, hn]
  exact if_pos h

theorem signed?_ofInt {width : Nat} {n : Int} (hlow : -((1 <<< (width - 1) : Nat) : Int) ≤ n)
    (hhigh : n < ((1 <<< (width - 1) : Nat) : Int)) : signed? width (ofInt n) = some n := by
  rw [ofInt, signed?, integer?_intText]
  exact if_pos ⟨hlow, hhigh⟩

theorem string?_ofText (s : String) : (ofText s).string? = some s := rfl

-- ---------------------------------------------------------------------------
-- Objects
-- ---------------------------------------------------------------------------

variable {fields : List (String × Json)}

theorem isPrintable_ofFields (h : ∀ f ∈ fields, f.2.isPrintable = true) :
    (ofFields fields).isPrintable = true := by
  rw [ofFields, isPrintable]
  induction fields with
  | nil => rfl
  | cons f fields ih =>
    obtain ⟨hf, hfields⟩ := List.forall_mem_cons.mp h
    rw [List.map_cons, membersPrintable, hf, ih hfields]
    rfl

/-- A field is found by its name. -/
theorem member?_of_mem (distinct : (fields.map (·.1)).Nodup) {f : String × Json} (hf : f ∈ fields) :
    member? (fields.map fun (name, value) => (some name, value)) f.1 = some (some f.2) := by
  have hfilter : (fields.map fun (name, value) => (some name, value)).filter
      (fun m => decide (m.1 = some f.1)) = [(some f.1, f.2)] := by
    induction fields with
    | nil => cases hf
    | cons g fields ih =>
      rw [List.map_cons, List.nodup_cons] at distinct
      obtain ⟨hfresh, hrest⟩ := distinct
      rw [List.map_cons, List.filter_cons]
      cases List.mem_cons.mp hf with
      | inl hhead =>
        subst hhead
        rw [if_pos (decide_eq_true rfl), List.filter_eq_nil_iff.mpr]
        intro m hm hname
        obtain ⟨g, hg, rfl⟩ := List.mem_map.mp hm
        have hsame : g.1 = f.1 := Option.some.inj (of_decide_eq_true hname)
        exact hfresh (hsame ▸ List.mem_map_of_mem hg)
      | inr htail =>
        have hother : ¬ decide (some g.1 = some f.1) = true := by
          intro hname
          have hsame : g.1 = f.1 := Option.some.inj (of_decide_eq_true hname)
          exact hfresh (hsame ▸ List.mem_map_of_mem htail)
        rw [if_neg hother]
        exact ih hrest htail
  rw [member?, hfilter]

/-- The fields of an object, read in their order. -/
theorem fields?_ofFields (distinct : (fields.map (·.1)).Nodup) :
    fields? (fields.map (·.1)) (ofFields fields) = some (fields.map fun f => some f.2) := by
  have hnames : (fields.map fun (name, value) => (some name, value)).all
      (fun m : Option String × Json => m.1.isSome) = true := by
    rw [List.all_map, List.all_eq_true]
    exact fun _ _ => rfl
  have hread : ∀ read ⊆ fields,
      (read.map (·.1)).mapM (member? (fields.map fun (name, value) => (some name, value))) =
        some (read.map fun f => some f.2) := by
    intro read hread
    induction read with
    | nil => rfl
    | cons f read ih =>
      obtain ⟨hf, hrest⟩ := List.cons_subset.mp hread
      rw [List.map_cons, List.mapM_cons, member?_of_mem distinct hf, ih hrest]
      rfl
  rw [ofFields, fields?, if_pos hnames]
  exact hread fields (List.Subset.refl fields)

end AffineSwarm.Json
