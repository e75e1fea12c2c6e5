import Readings.Proofs.Value.Parts
import Mathlib.Data.List.Perm.Basic

/-!
Values up to the order of keys. Two values are reorderings of each other when they differ in the
order of the entries of objects alone, at any depth; this is an equivalence. Where every object has
each key once, as every table of the library does, the order does not tell what is under a key
(`find_reordered`), and one of two reorderings is keyed when the other is.
-/
namespace Readings

namespace Entries

/-- Two entries under one key with related values. -/
def Alike (R : α → β → Prop) (entry : String × α) (other : String × β) : Prop :=
  entry.1 = other.1 ∧ R entry.2 other.2

/-- Tables are alike entry by entry when their keys are the same and their values related. -/
theorem alike_iff {R : α → β → Prop} {entries : Entries α} {others : Entries β} :
    List.Forall₂ (Alike R) entries others ↔ Entries.keys entries = Entries.keys others ∧
      List.Forall₂ R (Entries.values entries) (Entries.values others) := by
  constructor
  · intro alike
    induction alike with
    | nil => exact ⟨rfl, .nil⟩
    | cons head _ ih => exact ⟨congrArg₂ List.cons head.1 ih.1, .cons head.2 ih.2⟩
  · rintro ⟨keys, related⟩
    induction entries generalizing others with
    | nil =>
      obtain rfl := List.map_eq_nil_iff.mp keys.symm
      exact .nil
    | cons entry entries ih =>
      cases others with
      | nil => cases keys
      | cons other others =>
        obtain ⟨same, keys⟩ := List.cons.inj keys
        obtain ⟨head, tail⟩ := List.forall₂_cons.mp related
        exact .cons ⟨same, head⟩ (ih keys tail)

/-- The order of a table that has each key once does not tell what is under a key. -/
theorem find_moved {entries between : Entries α} (distinct : Entries.Distinct entries)
    (moved : entries.Perm between) (key : String) :
    Entries.find? entries key = Entries.find? between key := by
  have again : Entries.Distinct between := (moved.map Prod.fst).nodup_iff.mp distinct
  cases found : Entries.find? entries key with
  | none =>
    have missing := Entries.find_eq_none_iff.mp found
    exact (Entries.find_eq_none_iff.mpr fun listed =>
      missing ((moved.map Prod.fst).mem_iff.mpr listed)).symm
  | some value =>
    exact (Entries.find_of_mem again (moved.mem_iff.mp (Entries.mem_of_find found))).symm

/-- What is under a key of two tables that are alike entry by entry is related, and so is what is
taken for a missing value. -/
theorem find_alike {R : α → β → Prop} {entries : Entries α} {others : Entries β}
    (alike : List.Forall₂ (Alike R) entries others) (absent : R missing lacking) (key : String) :
    R ((Entries.find? entries key).getD missing) ((Entries.find? others key).getD lacking) := by
  induction alike with
  | nil => exact absent
  | @cons entry other _ _ head _ ih =>
    obtain ⟨known, value⟩ := entry
    obtain ⟨listed, reading⟩ := other
    obtain ⟨same, related⟩ := head
    obtain rfl : known = listed := same
    simp only [Entries.find?, List.lookup_cons] at ih ⊢
    cases key == known with
    | true => exact related
    | false => exact ih

end Entries

namespace Value

/-- Two values that differ in the order of the entries of objects alone, at any depth. -/
inductive Reordered : Value → Value → Prop where
  | scalar (kind : Literal.ofValue? actual = some literal) : Reordered actual actual
  | array (each : List.Forall₂ Reordered items others) : Reordered (.array items) (.array others)
  | object {entries between others : Entries Value} (moved : entries.Perm between)
      (keys : Entries.keys between = Entries.keys others)
      (each : List.Forall₂ Reordered (Entries.values between) (Entries.values others)) :
      Reordered (.object entries) (.object others)

/-- Objects are reorderings of each other when their entries, moved, are alike. -/
theorem reordered_object_iff {entries others : Entries Value} :
    Reordered (.object entries) (.object others) ↔
      ∃ between, entries.Perm between ∧ List.Forall₂ (Entries.Alike Reordered) between others := by
  constructor
  · intro same
    cases same with
    | scalar kind => cases kind
    | object moved keys each => exact ⟨_, moved, Entries.alike_iff.mpr ⟨keys, each⟩⟩
  · rintro ⟨between, moved, alike⟩
    obtain ⟨keys, each⟩ := Entries.alike_iff.mp alike
    exact .object moved keys each

theorem Reordered.refl (actual : Value) : Reordered actual actual := by
  induction actual using part_induction with
  | scalar _ _ kind => exact .scalar kind
  | array items ih => exact .array (List.forall₂_same.mpr ih)
  | object entries ih => exact .object (.refl entries) rfl (List.forall₂_same.mpr ih)

theorem Reordered.symm {actual other : Value} (same : Reordered actual other) :
    Reordered other actual := by
  induction actual using part_induction generalizing other with
  | scalar actual literal kind =>
    cases same with
    | scalar => exact .scalar kind
    | _ => cases kind
  | array items ih =>
    cases same with
    | scalar kind => cases kind
    | array each =>
      refine .array ((partners_listed each).flip.imp ?_)
      rintro other item ⟨listed, same⟩
      exact ih item listed same
  | object entries ih =>
    cases same with
    | scalar kind => cases kind
    | @object _ between others moved keys each =>
      have back : List.Forall₂ (Entries.Alike Reordered) others between := by
        refine Entries.alike_iff.mpr ⟨keys.symm, (partners_listed each).flip.imp ?_⟩
        rintro other value ⟨listed, same⟩
        exact ih value ((moved.map Prod.snd).mem_iff.mpr listed) same
      have around : Relation.Comp (List.Forall₂ (Entries.Alike Reordered)) List.Perm
          others entries := ⟨between, back, moved.symm⟩
      rw [List.forall₂_comp_perm_eq_perm_comp_forall₂] at around
      exact reordered_object_iff.mpr around

theorem Reordered.trans {actual other last : Value} (first : Reordered actual other)
    (second : Reordered other last) : Reordered actual last := by
  induction actual using part_induction generalizing other last with
  | scalar actual literal kind =>
    cases first with
    | scalar => exact second
    | _ => cases kind
  | array items ih =>
    cases first with
    | scalar kind => cases kind
    | array each =>
      cases second with
      | scalar kind => cases kind
      | array onward =>
        refine .array ((partners_listed (partners_compose each onward)).imp ?_)
        rintro item last ⟨listed, other, _, first, second⟩
        exact ih item listed first second
  | object entries ih =>
    cases first with
    | scalar kind => cases kind
    | @object _ between others moved keys each =>
      cases second with
      | scalar kind => cases kind
      | @object _ next lasts later again onward =>
        -- the entries are moved once, to stand beside those of the last object
        have around : Relation.Comp (List.Forall₂ (Entries.Alike Reordered)) List.Perm
            between next := ⟨others, Entries.alike_iff.mpr ⟨keys, each⟩, later⟩
        rw [List.forall₂_comp_perm_eq_perm_comp_forall₂] at around
        obtain ⟨whole, rest, alike⟩ := around
        have once : entries.Perm whole := moved.trans rest
        refine reordered_object_iff.mpr ⟨whole, once, ?_⟩
        have onward := Entries.alike_iff.mpr ⟨again, onward⟩
        refine (partners_listed (partners_compose alike onward)).imp ?_
        rintro entry last ⟨listed, other, _, first, second⟩
        have own : entry.2 ∈ Entries.values entries :=
          List.mem_map_of_mem (once.mem_iff.mpr listed)
        exact ⟨first.1.trans second.1, ih entry.2 own first.2 second.2⟩

/-- Being keyed does not depend on the order of entries. -/
theorem Reordered.keyed {actual other : Value} (same : Reordered actual other)
    (keyed : actual.Keyed) : other.Keyed := by
  induction actual using part_induction generalizing other with
  | scalar actual literal kind =>
    cases same with
    | scalar => exact keyed
    | _ => cases kind
  | array items ih =>
    cases same with
    | scalar => exact keyed
    | array each =>
      refine .array fun other listed => ?_
      obtain ⟨item, inside, same⟩ := partner_of_right each listed
      exact ih item inside same (keyed.item inside)
  | object entries ih =>
    cases same with
    | scalar => exact keyed
    | @object _ between others moved keys each =>
      have distinct : Entries.Distinct others := by
        rw [Entries.Distinct, ← keys]
        exact (moved.map Prod.fst).nodup_iff.mp keyed.distinct
      refine .object distinct fun other listed => ?_
      obtain ⟨value, inside, same⟩ := partner_of_right each listed
      have own : value ∈ Entries.values entries := (moved.map Prod.snd).mem_iff.mpr inside
      exact ih value own same (keyed.entry own)

/-- Under a key of two reorderings stand reorderings, or undefined where the key is missing. -/
theorem find_reordered {entries others : Entries Value}
    (same : Reordered (.object entries) (.object others)) (distinct : Entries.Distinct entries)
    (key : String) : Reordered ((Entries.find? entries key).getD .undefined)
      ((Entries.find? others key).getD .undefined) := by
  obtain ⟨between, moved, alike⟩ := reordered_object_iff.mp same
  rw [Entries.find_moved distinct moved]
  exact Entries.find_alike alike (.refl .undefined) key

end Value
end Readings
