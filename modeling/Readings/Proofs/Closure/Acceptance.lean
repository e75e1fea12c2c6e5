import Readings.Proofs.Closure.FreeSymbols
import Mathlib.Data.List.Find

/-!
Which groups close. The check for unguarded binders runs on walked bodies, where other symbols are
inlined, bound or left as references, and only where one particular cycle closes; it still refuses
exactly the descriptors that reach a cycle of unguarded edges. An error names a symbol on such a
cycle (`walk_error`), and a walk that went through has passed every reachable symbol without one
(`walk_ok_guarded`). What dangles is reported by the first unbound symbol that expansion meets,
since the free symbols keep that order through all joins and removals (`find_free`).
-/
namespace Readings
namespace Group
variable {group : Group}

/-! ## Unguarded cycles -/

/-- Whatever stops a walk is an unguarded cycle that the descriptor reaches. -/
theorem walk_error (bodies : group.BinderFree) (raw : d.binders = 0)
    (failed : group.walk expanding d = .error error) :
    ∃ symbol, error = .unguardedRecursion symbol.description ∧
      group.Leads Descriptor.anyNode expanding d symbol ∧ group.OnUnguardedCycle symbol := by
  induction expanding, d using expansion_induction group with
  | plain expanding d kind ih =>
    rw [walk_plain kind] at failed
    cases below : d.children.mapM (group.walk expanding) with
    | ok walked =>
      rw [below] at failed
      cases failed
    | error other =>
      rw [below] at failed
      cases failed
      obtain ⟨child, listed, failed⟩ := map_error below
      obtain ⟨symbol, named, path, cycle⟩ := ih child listed (d.binders_child raw listed) failed
      exact ⟨symbol, named, (Leads.plain_iff kind).mpr ⟨rfl, child, listed, path⟩, cycle⟩
  | stopped expanding symbol stopped =>
    rw [walk_stopped stopped] at failed
    cases failed
  | expanded expanding symbol body fresh found ih =>
    rw [walk_expanded fresh found] at failed
    cases below : group.walk (symbol :: expanding) body with
    | error other =>
      rw [below] at failed
      cases failed
      obtain ⟨deeper, named, path, cycle⟩ := ih (bodies.of_body found) below
      exact ⟨deeper, named, (Leads.expanded_iff fresh found).mpr (.inr path), cycle⟩
    | ok walked =>
      rw [below] at failed
      obtain ⟨named, unguarded⟩ := Walked.bind_cycle_error failed
      obtain ⟨_, path⟩ :=
        (reaches_unguarded_iff_leads bodies (bodies.of_body found) below).mp unguarded
      exact ⟨symbol, named, .here .reference,
        trans_gen_iff.mpr ⟨body, found, path.mono fun _ member => nomatch member⟩⟩
  | recursive => simp [Descriptor.binders] at raw

/-- A body that was walked and bound leads to its own symbol through containers only. -/
private theorem own_guarded (bodies : group.BinderFree) (found : group.body? symbol = some body)
    (ran : (group.walk (symbol :: expanding) body).bind (Walked.bindCycle symbol) = .ok result) :
    ¬ group.Leads Descriptor.transparent expanding body symbol := by
  intro path
  obtain ⟨walked, below, ends⟩ := walk_bound_ok ran
  have unguarded := (reaches_unguarded_iff_leads bodies (bodies.of_body found) below).mpr
    ⟨.inl List.mem_cons_self, path.avoiding_own found⟩
  have free := (mem_free_iff below).mpr (Descriptor.reaches_unguarded_iff.mp unguarded).frees
  rcases ends with ⟨closed, _⟩ | ⟨_, guarded, _⟩
  · exact closed free
  · rw [guarded] at unguarded
    cases unguarded

/-- A walk that goes through has no symbol on its way that comes back to itself unguarded. -/
theorem walk_ok_guarded (bodies : group.BinderFree) (raw : d.binders = 0)
    (ran : group.walk expanding d = .ok walked)
    (path : group.Leads Descriptor.anyNode expanding d symbol) (fresh : symbol ∉ expanding)
    (found : group.body? symbol = some body) :
    ¬ group.Leads Descriptor.transparent expanding body symbol := by
  induction expanding, d using expansion_induction group generalizing walked with
  | plain expanding d kind ih =>
    obtain ⟨parts, below, _⟩ := walk_plain_ok kind ran
    obtain ⟨_, child, listed, path⟩ := (Leads.plain_iff kind).mp path
    obtain ⟨one, _, ran⟩ := partner_of_left below listed
    exact ih child listed (d.binders_child raw listed) ran path fresh
  | stopped expanding other stopped =>
    obtain rfl := (Leads.stopped_iff stopped).mp path
    rcases stopped with known | unbound
    · exact absurd known fresh
    · rw [unbound] at found
      cases found
  | expanded expanding other inner new bound ih =>
    rw [walk_expanded new bound] at ran
    have guarded := own_guarded bodies bound ran
    by_cases own : symbol = other
    · subst own
      obtain rfl := Option.some.inj (bound.symm.trans found)
      exact guarded
    · have path := ((Leads.expanded_iff new bound).mp path).resolve_left own
      obtain ⟨walked, below, _⟩ := walk_bound_ok ran
      have deeper := ih (bodies.of_body bound) below path (by simp [own, fresh])
      intro cycle
      -- a cycle that avoids the expanded symbol is refused below, any other one visits that symbol
      rcases cycle.split other with avoiding | ⟨there, again, same, back⟩
      · exact deeper avoiding
      · obtain rfl := Option.some.inj (bound.symm.trans same)
        have out := back.mono fun _ member => List.mem_cons_of_mem other member
        exact guarded (out.trans fresh found there)
  | recursive => simp [Descriptor.binders] at raw

/-! ## Dangling references -/

/-- The symbols of the references that expansion meets, from left to right, with those of a body
right behind the reference it stands for. -/
def met (group : Group) (expanding : List Symbol) : Descriptor → List Symbol
  | .reference symbol =>
    match _found : group.body? symbol with
    | none => [symbol]
    | some body =>
      if _known : symbol ∈ expanding then [symbol]
      else symbol :: group.met (symbol :: expanding) body
  | .recursive symbol body => group.met (symbol :: expanding) body
  | d => d.children.attach.flatMap fun child => group.met expanding child.1
termination_by d => (group.unexpanded expanding, d.size)
decreasing_by
  · exact .left _ _ (unexpanded_cons_lt _found _known)
  · exact lex_of_le (unexpanded_cons_le ..)
      (Descriptor.size_child_lt (d := .recursive symbol body) (List.mem_singleton_self _))
  · exact .right _ (Descriptor.size_child_lt child.2)

theorem met_plain {d : Descriptor} (plain : d.plain = true) :
    group.met expanding d = d.children.flatMap (group.met expanding) := by
  rw [met]
  · rw [List.flatMap_subtype (g := group.met expanding) fun _ _ => rfl, List.unattach_attach]
  · rintro symbol rfl
    cases plain
  · rintro symbol body rfl
    cases plain

theorem met_stopped (stopped : symbol ∈ expanding ∨ group.body? symbol = none) :
    group.met expanding (.reference symbol) = [symbol] := by
  rw [met]
  split
  · rfl
  · rename_i body found
    rw [dif_pos (stopped.resolve_right (by simp [found]))]

theorem met_expanded (fresh : symbol ∉ expanding) (found : group.body? symbol = some body) :
    group.met expanding (.reference symbol) = symbol :: group.met (symbol :: expanding) body := by
  rw [met]
  split
  · rename_i unbound
    rw [unbound] at found
    cases found
  · rename_i other again
    obtain rfl := Option.some.inj (found.symm.trans again)
    rw [dif_neg fresh]

/-- Expansion meets exactly the symbols that the descriptor leads to. -/
theorem mem_met_iff (bodies : group.BinderFree) (raw : d.binders = 0) :
    symbol ∈ group.met expanding d ↔ group.Leads Descriptor.anyNode expanding d symbol := by
  induction expanding, d using expansion_induction group with
  | plain expanding d kind ih =>
    rw [met_plain kind, List.mem_flatMap, Leads.plain_iff kind]
    simp only [Descriptor.anyNode, true_and]
    refine exists_congr fun child => and_congr_right fun below => ?_
    exact ih child below (d.binders_child raw below)
  | stopped expanding other stopped =>
    rw [met_stopped stopped, Leads.stopped_iff stopped, List.mem_singleton]
  | expanded expanding other body fresh found ih =>
    rw [met_expanded fresh found, Leads.expanded_iff fresh found, List.mem_cons,
      ih (bodies.of_body found)]
  | recursive => simp [Descriptor.binders] at raw

/-- The group has no body for the symbol. -/
def unbound (group : Group) (symbol : Symbol) : Bool := (group.body? symbol).isNone

private theorem find_join {keep : Symbol → Bool} :
    (Walked.join free more).find? keep = (free.find? keep).or (more.find? keep) := by
  rw [Walked.join, List.find?_append, List.find?_filter]
  cases first : free.find? keep with
  | some => rfl
  | none =>
    rw [Option.none_or, Option.none_or]
    refine List.find?_congr fun symbol _ => ?_
    by_cases kept : keep symbol = true
    · have new : symbol ∉ free := fun known => List.find?_eq_none.mp first symbol known kept
      simp [kept, new]
    · simp [kept]

private theorem find_join_all {keep : Symbol → Bool} {walked : List Walked} :
    (Walked.joinAll free walked).find? keep =
      (free.find? keep).or ((walked.flatMap Walked.free).find? keep) := by
  induction walked generalizing free with
  | nil => simp [Walked.joinAll]
  | cons one rest ih =>
    rw [Walked.joinAll, List.foldl_cons]
    refine ih.trans ?_
    rw [find_join, List.flatMap_cons, List.find?_append, Option.or_assoc]

private theorem find_flat_map {keep : Symbol → Bool} {left : α → List Symbol}
    {right : β → List Symbol}
    (related : List.Forall₂ (fun item other => (left item).find? keep = (right other).find? keep)
      items others) : (items.flatMap left).find? keep = (others.flatMap right).find? keep := by
  induction related with
  | nil => rfl
  | cons head _ ih => rw [List.flatMap_cons, List.flatMap_cons, List.find?_append,
      List.find?_append, head, ih]

/-- The first unbound symbol among the free ones is the first that expansion meets: joining keeps
the order, and a binder takes away a bound symbol. -/
theorem find_free (bodies : group.BinderFree) (raw : d.binders = 0)
    (ran : group.walk expanding d = .ok walked) :
    walked.free.find? group.unbound = (group.met expanding d).find? group.unbound := by
  induction expanding, d using expansion_induction group generalizing walked with
  | plain expanding d kind ih =>
    obtain ⟨parts, below, rfl⟩ := walk_plain_ok kind ran
    rw [Walked.around, find_join_all, met_plain kind, List.find?_nil, Option.none_or]
    refine (find_flat_map ?_).symm
    refine (partners_listed below).imp ?_
    rintro child one ⟨listed, ran⟩
    exact (ih child listed (d.binders_child raw listed) ran).symm
  | stopped expanding symbol stopped =>
    rw [walk_stopped stopped] at ran
    cases ran
    rw [met_stopped stopped, Walked.loose]
  | expanded expanding symbol body fresh found ih =>
    rw [walk_expanded fresh found] at ran
    have bound : ¬ group.unbound symbol = true := by simp [unbound, found]
    rw [met_expanded fresh found, List.find?_cons_of_neg bound]
    obtain ⟨inner, below, ⟨_, rfl⟩ | ⟨_, _, rfl⟩⟩ := walk_bound_ok ran
    · exact ih (bodies.of_body found) below
    · rw [← ih (bodies.of_body found) below, (free_nodup below).erase_eq_filter, List.find?_filter]
      refine List.find?_congr fun other _ => ?_
      by_cases same : other = symbol
      · subst same
        simp [bound]
      · simp [same]
  | recursive => simp [Descriptor.binders] at raw

/-! ## Closing -/

/-- After a complete walk, whatever is free is unbound. -/
private theorem head_free (bodies : group.BinderFree) (raw : d.binders = 0)
    (ran : group.walk [] d = .ok walked) :
    walked.free.head? = (group.met [] d).find? group.unbound := by
  have dangles : ∀ symbol ∈ walked.free, group.unbound symbol = true := by
    intro symbol free
    have stop := ((mem_free_iff_leads bodies raw ran).mp free).1.resolve_left List.not_mem_nil
    simp [unbound, stop]
  rw [← find_free bodies raw ran]
  cases kept : walked.free with
  | nil => rfl
  | cons symbol rest =>
    have first := dangles symbol (by simp [kept])
    rw [List.head?_cons, List.find?_cons_of_pos first]

/-- Closing refuses exactly the descriptors that reach an unguarded cycle, with a symbol on one;
among the others, exactly those that reach an unbound symbol, with the first one that expansion
meets; and it closes all the rest. -/
theorem close_type_accepts_exactly (bodies : group.BinderFree) (raw : d.binders = 0) :
    ((∃ text, group.closeType d = .error (.unguardedRecursion text)) ↔
      ∃ symbol, group.Reaches d symbol ∧ group.OnUnguardedCycle symbol) ∧
    (∀ text, group.closeType d = .error (.unguardedRecursion text) →
      ∃ symbol, group.Reaches d symbol ∧ group.OnUnguardedCycle symbol ∧
        text = symbol.description) ∧
    ((¬ ∃ symbol, group.Reaches d symbol ∧ group.OnUnguardedCycle symbol) →
      ((∃ text, group.closeType d = .error (.danglingReference text)) ↔
        ∃ symbol, group.Reaches d symbol ∧ group.body? symbol = none) ∧
      (∀ text, group.closeType d = .error (.danglingReference text) →
        ∃ symbol, (group.met [] d).find? group.unbound = some symbol ∧
          text = symbol.description) ∧
      ((¬ ∃ symbol, group.Reaches d symbol ∧ group.body? symbol = none) →
        ∃ closed, group.closeType d = .ok closed)) := by
  have dangling : (∃ symbol, group.Reaches d symbol ∧ group.body? symbol = none) ↔
      ∃ symbol, (group.met [] d).find? group.unbound = some symbol := by
    rw [← Option.isSome_iff_exists, List.find?_isSome]
    exact exists_congr fun symbol => and_congr
      (reaches_iff.trans (mem_met_iff bodies raw).symm) (by simp [unbound])
  cases ran : group.walk [] d with
  | error error =>
    obtain ⟨symbol, rfl, path, cycle⟩ := walk_error bodies raw ran
    have reached := reaches_iff.mpr path
    rw [close_of_walk_error ran]
    refine ⟨⟨fun _ => ⟨symbol, reached, cycle⟩, fun _ => ⟨_, rfl⟩⟩, ?_,
      fun acyclic => absurd ⟨symbol, reached, cycle⟩ acyclic⟩
    rintro text ⟨⟩
    exact ⟨symbol, reached, cycle, rfl⟩
  | ok walked =>
    have acyclic : ¬ ∃ symbol, group.Reaches d symbol ∧ group.OnUnguardedCycle symbol := by
      rintro ⟨symbol, reached, cycle⟩
      obtain ⟨body, found, path⟩ := trans_gen_iff.mp cycle
      exact walk_ok_guarded bodies raw ran (reaches_iff.mp reached) List.not_mem_nil found path
    rw [dangling, close_of_walk ran, head_free bodies raw ran]
    cases first : (group.met [] d).find? group.unbound with
    | none => simp [acyclic]
    | some symbol => simp [acyclic]

/-- A definition that stands for itself, behind a reference to a missing one: the cycle is reported,
not what dangles. -/
theorem close_type_prefers_the_cycle :
    let own : Symbol := ⟨0, "own"⟩
    let missing : Symbol := ⟨1, "missing"⟩
    let group : Group := ⟨[(own, .union [.reference missing, .reference own])]⟩
    group.Reaches (.reference own) missing ∧ group.body? missing = none ∧
      ∃ text, group.closeType (.reference own) = .error (.unguardedRecursion text) := by
  intro own missing group
  have edge : ∀ symbol ∈ [missing, own], group.Edge Descriptor.transparent own symbol :=
    fun symbol listed =>
      ⟨_, rfl, .child rfl (List.mem_map_of_mem (f := Descriptor.reference) listed) .reference⟩
  have bodies : group.BinderFree := by
    intro entry listed
    obtain rfl := List.mem_singleton.mp listed
    rfl
  have cycle : group.OnUnguardedCycle own := .single (edge own (by simp))
  obtain ⟨body, found, inside⟩ := edge missing (by simp)
  have mentioned := Descriptor.Exposes.mentions inside
  refine ⟨⟨own, .reference, .single ⟨body, found, mentioned⟩⟩, by decide, ?_⟩
  exact (close_type_accepts_exactly bodies rfl).1.mpr ⟨own, ⟨own, .reference, .refl⟩, cycle⟩

end Group
end Readings
