import Readings.Proofs.Closure.FreeSymbols
import Readings.Proofs.Descriptor.Binders

/-!
Where closing puts binders. A reference that is expanded gets a binder exactly when its symbol comes
back to itself in the reference graph without passing a symbol that is being expanded around it; so
the same symbol may be bound at one place of a closed descriptor and inlined at another.
`Visits` names the places at which a walk arrives, and what the walk makes of each of them stands in
the result. Counting binders then tells whether a cycle is reachable at all, every binder captures a
reference, and no binder is put inside another one of its symbol.
-/
namespace Readings
namespace Group
variable {group : Group}

/-- A symbol lies on a cycle of the reference graph, guarded or not. -/
def OnCycle (group : Group) (symbol : Symbol) : Prop :=
  Relation.TransGen (group.Edge Descriptor.anyNode) symbol symbol

/-- A path of the reference graph leads from a symbol back to it and passes no avoided symbol. -/
def Returns (group : Group) (avoided : List Symbol) (symbol : Symbol) : Prop :=
  Relation.TransGen
    (fun one other => group.Edge Descriptor.anyNode one other ∧ other ∉ avoided) symbol symbol

theorem Returns.on_cycle (returns : group.Returns avoided symbol) : group.OnCycle symbol :=
  Relation.TransGen.mono (fun _ _ => And.left) _ _ returns

theorem returns_iff_leads (fresh : symbol ∉ avoided) (found : group.body? symbol = some body) :
    group.Returns avoided symbol ↔ group.Leads Descriptor.anyNode avoided body symbol := by
  rw [Returns, trans_gen_avoiding_iff fresh, found]
  simp only [Option.some.injEq, exists_eq_left']

/-! ## Places of a walk -/

/-- The walk of a descriptor, with some symbols being expanded, arrives at another descriptor, with
others being expanded there. -/
inductive Visits (group : Group) :
    List Symbol → Descriptor → List Symbol → Descriptor → Prop where
  | here : Visits group expanding d expanding d
  | child (plain : d.plain = true) (below : child ∈ d.children)
      (rest : Visits group expanding child others place) :
      Visits group expanding d others place
  | entered (enters : group.Enters expanding symbol body d)
      (rest : Visits group (symbol :: expanding) body others place) :
      Visits group expanding d others place

private theorem contains_in_around {d : Descriptor} (same : d.children.length = parts.length)
    (member : one ∈ parts) (inside : one.descriptor.Contains part) :
    (Walked.around d parts).descriptor.Contains part := by
  have stands : one.descriptor ∈ (Walked.around d parts).descriptor.children := by
    rw [Walked.children_around same]
    exact List.mem_map_of_mem member
  exact .child stands inside

/-- When a walk goes through, so does the walk at every place it visits, and what that becomes
stands in the result. -/
theorem walk_at_place (ran : group.walk expanding d = .ok walked)
    (visits : group.Visits expanding d others place) :
    ∃ part, group.walk others place = .ok part ∧
      walked.descriptor.Contains part.descriptor := by
  induction visits generalizing walked with
  | here => exact ⟨walked, ran, .self⟩
  | child plain listed _ ih =>
    obtain ⟨parts, below, rfl⟩ := walk_plain_ok plain ran
    obtain ⟨one, member, ran⟩ := partner_of_left below listed
    obtain ⟨part, there, inside⟩ := ih ran
    exact ⟨part, there, contains_in_around below.length_eq member inside⟩
  | entered enters _ ih =>
    rw [walk_enters enters] at ran
    obtain ⟨inner, below, ⟨_, rfl⟩ | ⟨_, _, rfl⟩⟩ := walk_bound_ok ran
    · exact ih below
    · obtain ⟨part, there, inside⟩ := ih below
      exact ⟨part, there, .child (List.mem_singleton_self _) inside⟩

/-- Conversely, a node of the result other than a reference or a binder is what the walk makes of such
a node at a place that it visits. -/
theorem node_at_place (ran : group.walk expanding d = .ok walked)
    (inside : walked.descriptor.Contains node) (plain : node.plain = true) :
    ∃ others place part, group.Visits expanding d others place ∧ place.plain = true ∧
      group.walk others place = .ok part ∧ part.descriptor = node := by
  induction ran using walk_ok_induction with
  | plain expanding d parts ran kind below =>
    cases inside with
    | self => exact ⟨expanding, d, _, .here, kind, ran, rfl⟩
    | child listed inside =>
      rw [Walked.children_around below.length_eq] at listed
      obtain ⟨one, member, rfl⟩ := List.mem_map.mp listed
      obtain ⟨child, under, _, ih⟩ := partner_of_right below member
      obtain ⟨others, place, part, visits, stands⟩ := ih inside
      exact ⟨others, place, part, .child kind under visits, stands⟩
  | stopped =>
    cases inside with
    | self => cases plain
    | child listed => cases listed
  | left _ _ _ _ _ _ _ enters _ ih =>
    obtain ⟨others, place, part, visits, stands⟩ := ih inside
    exact ⟨others, place, part, .entered enters visits, stands⟩
  | bound _ _ _ _ _ _ _ enters _ _ ih =>
    cases inside with
    | self => cases plain
    | child listed inside =>
      obtain rfl := List.mem_singleton.mp listed
      obtain ⟨others, place, part, visits, stands⟩ := ih inside
      exact ⟨others, place, part, .entered enters visits, stands⟩

/-- The binders in a node put around walked children are those of the children. -/
private theorem each_binder_around {d : Descriptor} (plain : d.plain = true)
    (same : d.children.length = parts.length)
    (each : ∀ one ∈ parts, one.descriptor.EachBinder P) :
    (Walked.around d parts).descriptor.EachBinder P := by
  have around : (Walked.around d parts).descriptor.plain = true := by rwa [Walked.plain_around]
  refine Descriptor.each_binder_plain around fun shape listed => ?_
  rw [Walked.children_around same] at listed
  obtain ⟨one, member, rfl⟩ := List.mem_map.mp listed
  exact each one member

/-! ## What becomes of an expanded reference -/

theorem ne_recursive (d : Descriptor) (symbol : Symbol) : d ≠ .recursive symbol d := by
  intro same
  have size := congrArg Descriptor.size same
  simp only [Descriptor.size] at size
  omega

/-- An expanded reference becomes its walked body, under a binder exactly when the symbol returns to
itself around the symbols being expanded. -/
theorem expansion_bound_iff (bodies : group.BinderFree) (fresh : symbol ∉ expanding)
    (found : group.body? symbol = some body)
    (ran : group.walk expanding (.reference symbol) = .ok walked) :
    ∃ inner, group.walk (symbol :: expanding) body = .ok inner ∧
      (walked.descriptor = .recursive symbol inner.descriptor ↔ group.Returns expanding symbol) ∧
      (walked.descriptor = inner.descriptor ↔ ¬ group.Returns expanding symbol) := by
  rw [walk_expanded fresh found] at ran
  obtain ⟨inner, below, ends⟩ := walk_bound_ok ran
  have comesBack : symbol ∈ inner.free ↔ group.Returns expanding symbol := by
    rw [mem_free_iff_leads bodies (bodies.of_body found) below, returns_iff_leads fresh found]
    constructor
    · rintro ⟨_, path⟩
      exact path.mono fun _ member => List.mem_cons_of_mem _ member
    · exact fun path => ⟨.inl List.mem_cons_self, path.avoiding_own found⟩
  refine ⟨inner, below, ?_⟩
  rw [← comesBack]
  rcases ends with ⟨closed, rfl⟩ | ⟨free, _, rfl⟩
  · simp [closed, ne_recursive]
  · simp [free, (ne_recursive inner.descriptor symbol).symm]

/-! ## Binders and cycles -/

/-- A binder in the result stands for a symbol to which the walk leads and that lies on a cycle. -/
theorem cycle_of_binder (bodies : group.BinderFree) (raw : d.binders = 0)
    (ran : group.walk expanding d = .ok walked) :
    walked.descriptor.EachBinder fun symbol _ =>
      group.Leads Descriptor.anyNode expanding d symbol ∧ group.OnCycle symbol := by
  induction expanding, d using expansion_induction group generalizing walked with
  | plain expanding d kind ih =>
    obtain ⟨parts, below, rfl⟩ := walk_plain_ok kind ran
    refine each_binder_around kind below.length_eq fun one member symbol body inside => ?_
    obtain ⟨child, listed, ran⟩ := partner_of_right below member
    obtain ⟨path, cycle⟩ := ih child listed (d.binders_child raw listed) ran symbol body inside
    exact ⟨(Leads.plain_iff kind).mpr ⟨rfl, child, listed, path⟩, cycle⟩
  | stopped expanding other stopped =>
    rw [walk_stopped stopped] at ran
    cases ran
    exact Descriptor.each_binder_of_binders rfl
  | expanded expanding other shape fresh found ih =>
    obtain ⟨inner, below, bound, inlined⟩ := expansion_bound_iff bodies fresh found ran
    have deeper : inner.descriptor.EachBinder fun symbol _ =>
        group.Leads Descriptor.anyNode expanding (.reference other) symbol ∧
          group.OnCycle symbol := by
      intro symbol body inside
      obtain ⟨path, cycle⟩ := ih (bodies.of_body found) below symbol body inside
      exact ⟨(Leads.expanded_iff fresh found).mpr (.inr path), cycle⟩
    by_cases returns : group.Returns expanding other
    · rw [bound.mpr returns]
      exact Descriptor.each_binder_recursive ⟨.here .reference, returns.on_cycle⟩ deeper
    · rw [inlined.mpr returns]
      exact deeper
  | recursive => simp [Descriptor.binders] at raw

/-- A walk that leads to a symbol that returns to itself puts a binder somewhere. -/
theorem binder_of_cycle (bodies : group.BinderFree) (raw : d.binders = 0)
    (ran : group.walk expanding d = .ok walked)
    (path : group.Leads Descriptor.anyNode expanding d symbol) (fresh : symbol ∉ expanding)
    (returns : group.Returns expanding symbol) :
    ∃ other body, walked.descriptor.Contains (.recursive other body) := by
  induction expanding, d using expansion_induction group generalizing walked with
  | plain expanding d kind ih =>
    obtain ⟨parts, below, rfl⟩ := walk_plain_ok kind ran
    obtain ⟨_, child, listed, path⟩ := (Leads.plain_iff kind).mp path
    obtain ⟨one, member, ran⟩ := partner_of_left below listed
    obtain ⟨other, body, inside⟩ :=
      ih child listed (d.binders_child raw listed) ran path fresh returns
    exact ⟨other, body, contains_in_around below.length_eq member inside⟩
  | stopped expanding other stopped =>
    obtain rfl := (Leads.stopped_iff stopped).mp path
    obtain ⟨body, found, _⟩ := (trans_gen_avoiding_iff fresh).mp returns
    rcases stopped with known | unbound
    · exact absurd known fresh
    · rw [unbound] at found
      cases found
  | expanded expanding other shape new found ih =>
    obtain ⟨inner, below, bound, inlined⟩ := expansion_bound_iff bodies new found ran
    by_cases own : group.Returns expanding other
    · rw [bound.mpr own]
      exact ⟨other, inner.descriptor, .self⟩
    · have apart : symbol ≠ other := fun same => own (same ▸ returns)
      have path := ((Leads.expanded_iff new found).mp path).resolve_left apart
      obtain ⟨body, again, cycle⟩ := (trans_gen_avoiding_iff fresh).mp returns
      -- a cycle through the expanded symbol would bring that symbol back as well
      rcases cycle.split other with avoiding | ⟨there, _⟩
      · have kept : symbol ∉ other :: expanding := by simp [apart, fresh]
        rw [inlined.mpr own]
        exact ih (bodies.of_body found) below path kept
          ((returns_iff_leads kept again).mpr avoiding)
      · have out := path.mono fun _ member => List.mem_cons_of_mem other member
        exact absurd ((returns_iff_leads new found).mpr (out.trans fresh again there)) own
  | recursive => simp [Descriptor.binders] at raw

/-! ## Every binder of a result -/

/-- A binder of a result captures a reference in its body, and each one that it captures is
guarded. -/
theorem binder_captures (ran : group.walk expanding d = .ok walked) :
    walked.descriptor.EachBinder fun symbol body =>
      body.Frees symbol ∧ ¬ body.OccursFree Descriptor.transparent symbol := by
  induction ran using walk_ok_induction with
  | plain expanding d parts _ kind below =>
    refine each_binder_around kind below.length_eq fun one member => ?_
    obtain ⟨child, _, _, ih⟩ := partner_of_right below member
    exact ih
  | stopped => exact Descriptor.each_binder_of_binders rfl
  | left _ _ _ _ _ _ _ _ _ ih => exact ih
  | bound _ _ own _ inner below _ _ free guarded ih =>
    refine Descriptor.each_binder_recursive ⟨(mem_free_iff below).mp free, ?_⟩ ih
    rw [← Descriptor.reaches_unguarded_iff, guarded]
    exact Bool.false_ne_true

namespace Enters

/-- What is entered binds once, like the descriptor it is entered from. -/
theorem binds_once (enters : group.Enters expanding symbol body d) (bodies : group.BinderFree)
    (once : d.BindsOnce) : body.BindsOnce := by
  cases enters with
  | reference _ found => exact Descriptor.each_binder_of_binders (bodies.of_body found)
  | binder => exact once.child (List.mem_singleton_self _)

/-- What is entered binds neither the symbol it is entered under nor one being expanded. -/
theorem spares (enters : group.Enters expanding symbol body d) (bodies : group.BinderFree)
    (once : d.BindsOnce) (apart : d.Spares expanding) : body.Spares (symbol :: expanding) := by
  cases enters with
  | reference _ found => exact Descriptor.each_binder_of_binders (bodies.of_body found)
  | binder => exact once.under apart

theorem fresh (enters : group.Enters expanding symbol body d) (apart : d.Spares expanding) :
    symbol ∉ expanding := by
  cases enters with
  | reference fresh _ => exact fresh
  | binder => exact apart symbol body .self

end Enters

/-- Over bodies without binders, a walk keeps two things together: nothing is bound that is being
expanded, and nothing is bound twice on a path. -/
theorem walk_binds_once (bodies : group.BinderFree) (ran : group.walk expanding d = .ok walked)
    (once : d.BindsOnce) (apart : d.Spares expanding) :
    walked.descriptor.BindsOnce ∧ walked.descriptor.Spares expanding := by
  induction ran using walk_ok_induction with
  | plain expanding d parts _ kind below =>
    have each : ∀ one ∈ parts, one.descriptor.BindsOnce ∧ one.descriptor.Spares expanding := by
      intro one member
      obtain ⟨child, listed, _, ih⟩ := partner_of_right below member
      exact ih (once.child listed) (apart.child listed)
    exact ⟨each_binder_around kind below.length_eq fun one member => (each one member).1,
      each_binder_around kind below.length_eq fun one member => (each one member).2⟩
  | stopped =>
    exact ⟨Descriptor.each_binder_of_binders rfl, Descriptor.each_binder_of_binders rfl⟩
  | left _ _ _ _ _ _ _ enters _ ih =>
    obtain ⟨once, apart⟩ := ih (enters.binds_once bodies once) (enters.spares bodies once apart)
    exact ⟨once, apart.fewer⟩
  | bound _ _ own _ inner _ _ enters _ _ ih =>
    have fresh := enters.fresh apart
    obtain ⟨once, apart⟩ := ih (enters.binds_once bodies once) (enters.spares bodies once apart)
    refine ⟨Descriptor.each_binder_recursive (fun other body inside => ?_) once,
      Descriptor.each_binder_recursive fresh apart.fewer⟩
    have outside := apart other body inside
    exact fun same => outside (List.mem_cons.mpr (.inl (List.mem_singleton.mp same)))

/-! ## Closing -/

/-- When closing goes through, a reference that is expanded with some symbols being expanded around
it stands in the closed descriptor as its walked body, under a binder exactly if the symbol returns
to itself without passing one of those. So there is no binder exactly if no cycle is reachable;
every binder captures a reference in its body; and none stands inside another one of its symbol, if
none did so from the start. -/
theorem close_type_places_binders_exactly (bodies : group.BinderFree)
    (closes : group.closeType raw = .ok closed) :
    (∀ expanding symbol body, group.Visits [] raw expanding (.reference symbol) →
      symbol ∉ expanding → group.body? symbol = some body →
        ∃ walked inner, group.walk expanding (.reference symbol) = .ok walked ∧
          group.walk (symbol :: expanding) body = .ok inner ∧
          closed.Contains walked.descriptor ∧
          (walked.descriptor = .recursive symbol inner.descriptor ↔
            group.Returns expanding symbol) ∧
          (walked.descriptor = inner.descriptor ↔ ¬ group.Returns expanding symbol)) ∧
      (raw.binders = 0 →
        (closed.binders = 0 ↔ ∀ symbol, group.Reaches raw symbol → ¬ group.OnCycle symbol)) ∧
      (∀ symbol body, closed.Contains (.recursive symbol body) → body.Frees symbol) ∧
      (raw.BindsOnce → closed.BindsOnce) := by
  obtain ⟨whole, ran, _, rfl⟩ := walk_of_close closes
  refine ⟨fun expanding symbol body visits fresh found => ?_, fun free => ⟨fun none => ?_, ?_⟩,
    fun symbol body inside => (binder_captures ran symbol body inside).1,
    fun once => (walk_binds_once bodies ran once fun _ _ _ => List.not_mem_nil).1⟩
  · obtain ⟨walked, there, inside⟩ := walk_at_place ran visits
    obtain ⟨inner, below, bound, inlined⟩ := expansion_bound_iff bodies fresh found there
    exact ⟨walked, inner, there, below, inside, bound, inlined⟩
  · intro symbol reached cycle
    have returns : group.Returns [] symbol :=
      Relation.TransGen.mono (fun _ _ edge => ⟨edge, List.not_mem_nil⟩) _ _ cycle
    obtain ⟨other, body, inside⟩ :=
      binder_of_cycle bodies free ran (reaches_iff.mp reached) List.not_mem_nil returns
    exact Descriptor.binders_eq_zero_iff.mp none other body inside
  · intro acyclic
    refine Descriptor.binders_eq_zero_iff.mpr fun symbol body inside => ?_
    obtain ⟨path, cycle⟩ := cycle_of_binder bodies free ran symbol body inside
    exact acyclic symbol (reaches_iff.mpr path) cycle

/-- Two names that alternate, closed from the first: the second does not return to itself around the
first, and is inlined; the first does, and is bound. -/
theorem alternation_binds_the_first_name :
    let even : Symbol := ⟨0, "even"⟩
    let odd : Symbol := ⟨1, "odd"⟩
    let group : Group := ⟨[(even, .union [.object [("odd", .reference odd)], .primitive .null]),
      (odd, .object [("even", .reference even)])]⟩
    let closed : Descriptor := .recursive even
      (.union [.object [("odd", .object [("even", .reference even)])], .primitive .null])
    group.closeType (.reference even) = .ok closed ∧
      group.Returns [] even ∧ ¬ group.Returns [even] odd ∧
      group.Reaches (.reference even) odd ∧ group.OnCycle odd ∧ closed.binders ≠ 0 ∧
      closed.BindsOnce := by
  intro even odd group closed
  have bodies : group.BinderFree := by
    intro entry listed
    simp only [group, List.mem_cons, List.not_mem_nil, or_false] at listed
    rcases listed with rfl | rfl <;> rfl
  have closes : group.closeType (.reference even) = .ok closed := by cbv
  obtain ⟨places, count, _, once⟩ := close_type_places_binders_exactly bodies closes
  have there : group.Edge Descriptor.anyNode even odd :=
    ⟨_, rfl, .child rfl List.mem_cons_self (.child rfl List.mem_cons_self .reference)⟩
  have back : group.Edge Descriptor.anyNode odd even :=
    ⟨_, rfl, .child rfl List.mem_cons_self .reference⟩
  have reached : group.Reaches (.reference even) odd := ⟨even, .reference, .single there⟩
  have cycle : group.OnCycle odd := .tail (.single back) there
  have arrives : group.Visits [] (.reference even) [even] (.reference odd) :=
    .entered (.reference List.not_mem_nil rfl)
      (.child rfl List.mem_cons_self (.child rfl List.mem_cons_self .here))
  obtain ⟨walked, inner, ran, below, _, bound, _⟩ :=
    places [] even _ .here List.not_mem_nil rfl
  have outside : group.walk [] (.reference even) = .ok ⟨closed, []⟩ := by cbv
  have inside : group.walk [even] (.union [.object [("odd", .reference odd)],
      .primitive .null]) = .ok ⟨.union [.object [("odd", .object [("even", .reference even)])],
        .primitive .null], [even]⟩ := by cbv
  obtain rfl := Except.ok.inj (outside.symm.trans ran)
  obtain rfl := Except.ok.inj (inside.symm.trans below)
  obtain ⟨walked, inner, ran, below, _, _, inlined⟩ :=
    places [even] odd _ arrives (by decide) rfl
  have kept : group.walk [even] (.reference odd) =
      .ok ⟨.object [("even", .reference even)], [even]⟩ := by cbv
  have entered : group.walk [odd, even] (.object [("even", .reference even)]) =
      .ok ⟨.object [("even", .reference even)], [even]⟩ := by cbv
  obtain rfl := Except.ok.inj (kept.symm.trans ran)
  obtain rfl := Except.ok.inj (entered.symm.trans below)
  exact ⟨closes, bound.mp rfl, inlined.mp rfl, reached, cycle,
    fun none => (count rfl).mp none odd reached cycle, once (Descriptor.each_binder_of_binders rfl)⟩

end Group
end Readings
