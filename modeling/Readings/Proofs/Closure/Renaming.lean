import Readings.Proofs.Cast.Scoping
import Readings.Proofs.Descriptor.Renaming

/-!
What closing and casting do not look at. Both compare symbols by identity only: a group with renamed
symbols has renamed closed forms (`close_type_renamed`), and a renamed closed descriptor has the
casts of the original, down to every node of their trees (`cast_renamed_of_close`). Closing looks
moreover at nothing but the bodies and the symbols being expanded that a descriptor can come to
(`walk_reads_free`).
-/
namespace Readings

/-- Bodies under symbols, all with other symbols. -/
def renamedRows (rename : Renaming) (rows : List (Symbol × Descriptor)) :
    List (Symbol × Descriptor) :=
  rows.map fun row => (rename row.1, row.2.renamed rename)

variable {rename : Renaming}

theorem lookup_renamed (rows : List (Symbol × Descriptor)) (symbol : Symbol) :
    (renamedRows rename rows).lookup (rename symbol) =
      (rows.lookup symbol).map (Descriptor.renamed rename) := by
  induction rows with
  | nil => rfl
  | cons row rest ih =>
    have same : (rename symbol == rename row.1) = (symbol == row.1) := by
      rw [Bool.eq_iff_iff, beq_iff_eq, beq_iff_eq, rename.injective.eq_iff]
    have renamed : renamedRows rename (row :: rest) =
        (rename row.1, row.2.renamed rename) :: renamedRows rename rest := rfl
    rw [renamed, List.lookup_cons, List.lookup_cons, same, ih]
    cases symbol == row.1 <;> rfl

namespace Walked

def renamed (rename : Renaming) (walked : Walked) : Walked :=
  ⟨walked.descriptor.renamed rename, walked.free.map rename⟩

theorem join_renamed (met more : List Symbol) :
    (join met more).map rename = join (met.map rename) (more.map rename) := by
  have known : ∀ symbol, rename symbol ∈ met.map rename ↔ symbol ∈ met := fun symbol =>
    List.mem_map_of_injective rename.injective
  simp only [join, List.map_append, List.filter_map, Function.comp_def, known]

theorem join_all_renamed (met : List Symbol) (walked : List Walked) :
    (joinAll met walked).map rename = joinAll (met.map rename) (walked.map (renamed rename)) := by
  induction walked generalizing met with
  | nil => rfl
  | cons one rest ih =>
    have first : joinAll met (one :: rest) = joinAll (join met one.free) rest := rfl
    rw [first, ih, join_renamed]
    rfl

theorem around_renamed {d : Descriptor} (plain : d.plain = true)
    (same : walked.length = d.children.length) :
    (around d walked).renamed rename = around (d.renamed rename) (walked.map (renamed rename)) := by
  have counted : (walked.map descriptor).length = d.children.length := by
    rw [List.length_map, same]
  have shapes : (d.withChildren (walked.map descriptor)).renamed rename =
      (d.renamed rename).withChildren ((walked.map descriptor).map (Descriptor.renamed rename)) :=
    Descriptor.renamed_with_children plain counted
  simp only [renamed, around, shapes, join_all_renamed, List.map_map]
  rfl

theorem bind_cycle_renamed (walked : Walked) (symbol : Symbol) :
    (walked.renamed rename).bindCycle (rename symbol) =
      (walked.bindCycle symbol).map (renamed rename) := by
  have free : rename symbol ∈ walked.free.map rename ↔ symbol ∈ walked.free :=
    List.mem_map_of_injective rename.injective
  simp only [bindCycle, renamed, free, Descriptor.reaches_unguarded_renamed, rename.description]
  split
  · split
    · rfl
    · simp only [Except.map, renamed, Descriptor.renamed, List.map_erase rename.injective]
  · rfl

end Walked

namespace Group
variable {group other : Group}

def renamed (rename : Renaming) (group : Group) : Group := ⟨renamedRows rename group.bodies⟩

theorem body_renamed (symbol : Symbol) :
    (group.renamed rename).body? (rename symbol) =
      (group.body? symbol).map (Descriptor.renamed rename) :=
  lookup_renamed group.bodies symbol

/-- The walk over a renamed group does the same under other symbols. -/
theorem walk_renamed (expanding : List Symbol) (d : Descriptor) :
    (group.renamed rename).walk (expanding.map rename) (d.renamed rename) =
      (group.walk expanding d).map (Walked.renamed rename) := by
  have known : ∀ (expanding : List Symbol) symbol,
      rename symbol ∈ expanding.map rename ↔ symbol ∈ expanding := fun expanding symbol =>
    List.mem_map_of_injective rename.injective
  have bound : ∀ symbol (result : Except SchemaError Walked),
      (result.map (Walked.renamed rename)).bind (Walked.bindCycle (rename symbol)) =
        (result.bind (Walked.bindCycle symbol)).map (Walked.renamed rename) := by
    intro symbol result
    cases result with
    | error error => rfl
    | ok walked => exact walked.bind_cycle_renamed symbol
  induction expanding, d using expansion_induction group with
  | plain expanding d kind ih =>
    rw [walk_plain kind, walk_plain ((Descriptor.plain_renamed d).trans kind),
      Descriptor.children_renamed, map_alike ih]
    cases below : d.children.mapM (group.walk expanding) with
    | error error => rfl
    | ok walked =>
      have counted := (map_ok_iff.mp below).length_eq.symm
      exact congrArg Except.ok (Walked.around_renamed kind counted).symm
  | stopped expanding symbol stopped =>
    have stays : rename symbol ∈ expanding.map rename ∨
        (group.renamed rename).body? (rename symbol) = none := by
      rw [known, body_renamed, Option.map_eq_none_iff]
      exact stopped
    rw [Descriptor.renamed, walk_stopped stays, walk_stopped stopped]
    rfl
  | expanded expanding symbol body fresh found ih =>
    have again : (group.renamed rename).body? (rename symbol) = some (body.renamed rename) := by
      rw [body_renamed, found, Option.map_some]
    rw [Descriptor.renamed, walk_expanded (mt (known _ _).mp fresh) again, walk_expanded fresh found]
    rw [List.map_cons] at ih
    rw [ih, bound]
  | recursive expanding symbol body ih =>
    rw [Descriptor.renamed, walk_recursive, walk_recursive]
    rw [List.map_cons] at ih
    rw [ih, bound]

theorem close_type_renamed (group : Group) (d : Descriptor) :
    (group.renamed rename).closeType (d.renamed rename) =
      (group.closeType d).map (Descriptor.renamed rename) := by
  have walks : (group.renamed rename).walk [] (d.renamed rename) =
      (group.walk [] d).map (Walked.renamed rename) := walk_renamed [] d
  cases ran : group.walk [] d with
  | error error =>
    rw [ran] at walks
    rw [close_of_walk_error ran, close_of_walk_error walks]
    rfl
  | ok walked =>
    rw [ran] at walks
    rw [close_of_walk ran, close_of_walk walks, Walked.renamed, List.head?_map]
    cases walked.free.head? with
    | none => rfl
    | some symbol => simp [Except.map, rename.description]

/-! ## What a walk depends on -/

/-- Two groups have the same bodies of the symbols that matter, and what such a body mentions
matters too. -/
structure Agree (matters : Symbol → Prop) (group other : Group) : Prop where
  same : ∀ symbol, matters symbol → group.body? symbol = other.body? symbol
  onward : ∀ symbol body, matters symbol → group.body? symbol = some body →
    ∀ next, body.Mentions next → matters next

/-- A walk looks at the bodies of free symbols only, those of the descriptor and of the bodies that
it comes to. A symbol that is bound around the descriptor need not matter. -/
theorem walk_reads_free {matters : Symbol → Prop}
    (same : ∀ symbol, matters symbol → group.body? symbol = other.body? symbol)
    (onward : ∀ symbol body, matters symbol → group.body? symbol = some body →
      ∀ next, body.Frees next → matters next)
    (stack : ∀ symbol, matters symbol → (symbol ∈ expanding ↔ symbol ∈ also))
    (inside : ∀ symbol, d.Frees symbol →
      matters symbol ∨ symbol ∈ expanding ∧ symbol ∈ also) :
    group.walk expanding d = other.walk also d := by
  have under : ∀ {expanding also : List Symbol} (bound : Symbol),
      (∀ symbol, matters symbol → (symbol ∈ expanding ↔ symbol ∈ also)) →
      ∀ symbol, matters symbol → (symbol ∈ bound :: expanding ↔ symbol ∈ bound :: also) := by
    intro expanding also bound stack symbol matter
    rw [List.mem_cons, List.mem_cons, stack symbol matter]
  induction expanding, d using expansion_induction group generalizing also with
  | plain expanding d kind ih =>
    rw [walk_plain kind, walk_plain kind]
    rw [map_congr fun child below => ih child below stack fun symbol captured =>
      inside symbol (.child kind rfl below captured)]
  | stopped expanding symbol stopped =>
    rw [walk_stopped stopped]
    rcases inside symbol .reference with matter | ⟨_, bound⟩
    · rw [stack symbol matter, same symbol matter] at stopped
      rw [walk_stopped stopped]
    · rw [walk_stopped (.inl bound)]
  | expanded expanding symbol body fresh found ih =>
    have matter := (inside symbol .reference).resolve_right fun bound => fresh bound.1
    have again : other.body? symbol = some body := (same symbol matter).symm.trans found
    rw [walk_expanded fresh found, walk_expanded (mt (stack symbol matter).mpr fresh) again]
    rw [ih (under symbol stack) fun next captured =>
      .inl (onward symbol body matter found next captured)]
  | recursive expanding symbol body ih =>
    rw [walk_recursive, walk_recursive, ih (under symbol stack)]
    intro next captured
    rcases captured.out_of_binder symbol with rfl | captured
    · exact .inr ⟨List.mem_cons_self, List.mem_cons_self⟩
    · exact (inside next captured).imp_right fun bound =>
        ⟨List.mem_cons_of_mem _ bound.1, List.mem_cons_of_mem _ bound.2⟩

/-- A walk comes to the same over groups that agree on what the descriptor mentions, where the same
of those symbols are being expanded. -/
theorem walk_frame (agree : Agree matters group other)
    (stack : ∀ symbol, matters symbol → (symbol ∈ expanding ↔ symbol ∈ also))
    (inside : ∀ symbol, d.Mentions symbol → matters symbol) :
    group.walk expanding d = other.walk also d := by
  refine walk_reads_free agree.same (fun symbol body matter found next captured => ?_) stack
    fun symbol captured => .inl (inside symbol captured.mentions)
  exact agree.onward symbol body matter found next captured.mentions

theorem close_type_frame (agree : Agree matters group other)
    (inside : ∀ symbol, d.Mentions symbol → matters symbol) :
    group.closeType d = other.closeType d := by
  rw [closeType, closeType, walk_frame agree (fun _ _ => Iff.rfl) inside]

end Group

/-! ## Casting -/

/-- A cast in a scope that answers its references never tells one symbol from another. -/
theorem cast_renamed (kept : SelfCovering scope) (covered : d.CoveredBy scope) (actual : Value) :
    castWithin budget (renamedRows rename scope) (d.renamed rename) actual =
      castWithin budget scope d actual := by
  induction budget generalizing scope d actual with
  | zero => rfl
  | succ budget ih =>
    cases kind : d.plain with
    | true =>
      have alike : List.Forall₂ (fun child shape => ∀ actual, castWithin budget scope child actual =
          castWithin budget (renamedRows rename scope) shape actual)
          d.children (d.children.map (Descriptor.renamed rename)) :=
        List.forall₂_map_right_iff.mpr <| List.forall₂_same.mpr fun child below actual =>
          (ih kept (covered.child kind below) actual).symm
      rw [Descriptor.renamed_plain kind]
      exact (cast_plain_congr kind alike actual).symm
    | false =>
      cases d with
      | reference symbol =>
        obtain ⟨body, bound⟩ := covered symbol .reference
        have again : (renamedRows rename scope).lookup (rename symbol) =
            some (body.renamed rename) := by
          rw [lookup_renamed, bound, Option.map_some]
        rw [Descriptor.renamed, cast_bound again, cast_bound bound]
        exact ih kept (kept symbol body bound) actual
      | recursive symbol body =>
        rw [Descriptor.renamed, cast_recursive, cast_recursive]
        exact ih (kept.under covered) covered.under actual
      | _ => cases kind

/-- A renamed closed descriptor has the same casts, at every depth and at the depth that suffices. -/
theorem cast_renamed_of_close {group : Group} (closes : group.closeType raw = .ok closed)
    (rename : Renaming) (actual : Value) :
    (∀ budget, castWithin budget [] (closed.renamed rename) actual =
        castWithin budget [] closed actual) ∧
      (closed.renamed rename).cast actual = closed.cast actual := by
  have covered : closed.CoveredBy [] := fun symbol captured =>
    absurd captured (frees_nothing_of_close closes symbol)
  have same : ∀ budget, castWithin budget [] (closed.renamed rename) actual =
      castWithin budget [] closed actual := fun budget =>
    cast_renamed self_covering_nothing covered actual
  refine ⟨same, ?_⟩
  rw [Descriptor.cast, same, castBudget, Descriptor.size_renamed]
  rfl

end Readings
