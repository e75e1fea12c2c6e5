import Readings.Proofs.Descriptor.Children

/-!
Where binders stand in a descriptor. `Contains` is the plain relation between a descriptor and
everything in it, and says nothing of what a binder captures. What is said of all binders in a
descriptor is said of each child of a plain node, or of a binder and its body (`EachBinder`). A
descriptor that binds a symbol once on every path down (`BindsOnce`) has no reference whose binder
could be mistaken for another one.
-/
namespace Readings
namespace Descriptor

/-- A descriptor is another one, or stands somewhere below its root. -/
inductive Contains : Descriptor → Descriptor → Prop where
  | self : Contains d d
  | child (below : child ∈ d.children) (inside : Contains child part) : Contains d part

theorem Contains.trans {d : Descriptor} (first : d.Contains part) (second : part.Contains piece) :
    d.Contains piece := by
  induction first with
  | self => exact second
  | child below _ ih => exact .child below (ih second)

/-- A binder in a node that is none stands in one of its children. -/
theorem Contains.below_plain {d : Descriptor} (plain : d.plain = true)
    (inside : d.Contains (.recursive symbol body)) :
    ∃ child ∈ d.children, child.Contains (.recursive symbol body) := by
  cases inside with
  | self => cases plain
  | child below inside => exact ⟨_, below, inside⟩

/-- A binder in a binder is that binder, or stands in its body. -/
theorem Contains.in_binder (inside : Contains (.recursive bound shape) (.recursive symbol body)) :
    symbol = bound ∧ body = shape ∨ shape.Contains (.recursive symbol body) := by
  cases inside with
  | self => exact .inl ⟨rfl, rfl⟩
  | child below inside =>
    obtain rfl := List.mem_singleton.mp below
    exact .inr inside

theorem not_contains_in_reference : ¬ Contains (.reference other) (.recursive symbol body) := by
  intro inside
  cases inside with
  | child below => cases below

/-- Counting binders finds none exactly where there is none. -/
theorem binders_eq_zero_iff {d : Descriptor} :
    d.binders = 0 ↔ ∀ symbol body, ¬ d.Contains (.recursive symbol body) := by
  induction d using child_induction with
  | node d ih =>
    cases kind : d.plain with
    | true =>
      rw [binders_children kind, List.sum_eq_zero_iff_forall_eq_nat, List.forall_mem_map]
      constructor
      · intro none symbol body inside
        obtain ⟨child, below, inside⟩ := inside.below_plain kind
        exact (ih child below).mp (none child below) symbol body inside
      · intro none child below
        exact (ih child below).mpr fun symbol body inside =>
          none symbol body (.child below inside)
    | false =>
      cases d with
      | reference => exact ⟨fun _ _ _ => not_contains_in_reference, fun _ => rfl⟩
      | recursive symbol body =>
        refine ⟨fun none => ?_, fun none => absurd .self (none symbol body)⟩
        simp [binders] at none
      | _ => cases kind

/-- Every binder in a descriptor, taken with its body, has a property. -/
def EachBinder (d : Descriptor) (P : Symbol → Descriptor → Prop) : Prop :=
  ∀ symbol body, d.Contains (.recursive symbol body) → P symbol body

theorem EachBinder.child {d child : Descriptor} (each : d.EachBinder P)
    (below : child ∈ d.children) : child.EachBinder P :=
  fun symbol body inside => each symbol body (.child below inside)

theorem each_binder_plain {d : Descriptor} (plain : d.plain = true)
    (each : ∀ child ∈ d.children, child.EachBinder P) : d.EachBinder P := by
  intro symbol body inside
  obtain ⟨child, below, inside⟩ := inside.below_plain plain
  exact each child below symbol body inside

theorem each_binder_recursive (own : P bound body) (each : body.EachBinder P) :
    (recursive bound body).EachBinder P := by
  intro symbol shape inside
  rcases inside.in_binder with ⟨rfl, rfl⟩ | inside
  · exact own
  · exact each symbol shape inside

theorem each_binder_of_binders {d : Descriptor} (none : d.binders = 0) : d.EachBinder P :=
  fun symbol body inside => absurd inside (binders_eq_zero_iff.mp none symbol body)

/-- No binder in a descriptor binds one of the symbols. -/
def Spares (d : Descriptor) (symbols : List Symbol) : Prop :=
  d.EachBinder fun symbol _ => symbol ∉ symbols

theorem Spares.fewer {d : Descriptor} (spares : d.Spares (symbol :: symbols)) : d.Spares symbols :=
  fun other body inside known => spares other body inside (List.mem_cons_of_mem _ known)

/-- No binder stands inside a binder of the same symbol. -/
def BindsOnce (d : Descriptor) : Prop :=
  d.EachBinder fun symbol body => body.Spares [symbol]

/-- Below a binder that does not bind one of the symbols, neither those nor its own are bound. -/
theorem BindsOnce.under (once : BindsOnce (.recursive symbol body))
    (spares : Spares (.recursive symbol body) symbols) : body.Spares (symbol :: symbols) := by
  intro other shape inside
  refine List.not_mem_cons_of_ne_of_not_mem ?_
    (spares other shape (.child (List.mem_singleton_self _) inside))
  exact fun same => once symbol body .self other shape inside (List.mem_singleton.mpr same)

end Descriptor
end Readings
