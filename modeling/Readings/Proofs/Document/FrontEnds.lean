import Readings.Proofs.Document.Renaming

/-!
Documents and systems of combinators. A system whose combinators build the bodies of a document has
the errors of the document and, up to a renaming, its definitions. The root is a definition like any
other as soon as it has a name that nothing refers to: with it as the last body of the system, the
symbol of that name stands on the stack while the root is walked, and is met nowhere
(`close_last`).
-/
namespace Readings

/-! ## Placeholders -/

theorem Document.numbered_cons (serial : Nat) (name : String) (rest : List String) :
    numbered serial (name :: rest) = (name, ⟨serial, name⟩) :: numbered (serial + 1) rest := by
  simp [numbered, List.zipIdx_cons, List.zipIdx_succ, Nat.add_right_comm, Function.comp_def,
    Nat.add_assoc]

theorem Document.numbered_append (serial : Nat) (names : List String) (last : String) :
    numbered serial (names ++ [last]) =
      numbered serial names ++ [(last, ⟨serial + names.length, last⟩)] := by
  simp [numbered, List.zipIdx_append]

namespace Placeholders
open Document (numbered)

private theorem draw_more_distinct {symbols : Entries Symbol} {names : List String}
    (distinct : (Entries.keys symbols ++ names).Nodup) (serial : Nat) :
    drawMore serial symbols names = .ok ⟨symbols ++ numbered serial names⟩ := by
  induction names generalizing serial symbols with
  | nil => simp [drawMore, numbered]
  | cons name rest ih =>
    have rejoined : Entries.keys symbols ++ name :: rest =
        Entries.keys (symbols ++ [(name, Symbol.mk serial name)]) ++ rest := by
      simp [Entries.keys]
    have fresh : Entries.find? symbols name = none := by
      refine Entries.find_eq_none_iff.mpr fun known => ?_
      exact (List.nodup_append.mp distinct).2.2 name known name List.mem_cons_self rfl
    rw [rejoined] at distinct
    rw [drawMore, fresh, if_neg (by simp), ih distinct, Document.numbered_cons]
    simp

/-- Distinct names get one symbol each, counted up from the serial. -/
theorem draw_distinct {names : List String} (distinct : names.Nodup) (serial : Nat) :
    draw serial names = .ok ⟨numbered serial names⟩ := by
  rw [draw, draw_more_distinct (by simpa [Entries.keys] using distinct)]
  rfl

/-- Complete bodies are closed as one group, in the order of the names. -/
theorem close_complete (placeholders : Placeholders) (bodies : List Descriptor) :
    placeholders.close (bodies.map fun body => ⟨body, []⟩) =
      Group.closeNamed ⟨(Entries.values placeholders.symbols).zip bodies⟩ placeholders.symbols := by
  have missing : (bodies.map fun body => Draft.mk body []).flatMap Draft.missing = [] := by
    simp
  have drafted : (bodies.map fun body => Draft.mk body []).map Draft.descriptor = bodies := by
    simp [Function.comp_def]
  rw [close, missing]
  simp only [drafted]
  rfl

end Placeholders

/-- A definition whose combinator builds the body that a node is lowered to, under whatever symbols
it is given, and asks for no name in vain. -/
structure Definition.Builds (definition : Definition (Except SchemaError)) (name : String)
    (node : Node) : Prop where
  name : definition.name = name
  body : ∀ (placeholders : Placeholders) body, node.lower placeholders.symbols = .ok body →
    definition.body placeholders = .ok ⟨body, []⟩

/-- A system of complete bodies is closed under the symbols drawn for its names. -/
theorem fix_of_bodies {definitions : List (Definition (Except SchemaError))}
    (distinct : (definitions.map Definition.name).Nodup)
    (built : List.Forall₂ (fun definition body => definition.body
        ⟨Document.numbered serial (definitions.map Definition.name)⟩ = .ok ⟨body, []⟩)
      definitions bodies) :
    fix serial definitions =
      Group.closeNamed
        ⟨(Entries.values (Document.numbered serial (definitions.map Definition.name))).zip bodies⟩
        (Document.numbered serial (definitions.map Definition.name)) := by
  have drawn := Placeholders.draw_distinct distinct serial
  have drafts : (definitions.mapM fun definition => definition.body
      ⟨Document.numbered serial (definitions.map Definition.name)⟩) =
        .ok (bodies.map fun body => ⟨body, []⟩) :=
    map_ok_iff.mpr (List.forall₂_map_right_iff.mpr built)
  have closes := Placeholders.close_complete
    ⟨Document.numbered serial (definitions.map Definition.name)⟩ bodies
  rw [fix, drawn]
  change (definitions.mapM fun definition => definition.body
    ⟨Document.numbered serial (definitions.map Definition.name)⟩) >>= _ = _
  rw [drafts]
  change fix.liftExcept (Placeholders.close _ _) = _
  rw [closes]
  cases Group.closeNamed _ _ <;> rfl

theorem Group.close_named_append (group : Group) (symbols : Entries Symbol) (name : String)
    (own : Symbol) : group.closeNamed (symbols ++ [(name, own)]) = (do
      let table ← group.closeNamed symbols
      .ok (table ++ [(name, ← group.close own)])) := by
  rw [closeNamed, List.mapM_append]
  refine bind_congr fun table => ?_
  simp only [List.mapM_cons, List.mapM_nil]
  cases group.close own <;> rfl

namespace Document
variable {document : Document} {definitions : List (Definition (Except SchemaError))}
  {last : Definition (Except SchemaError)}

/-- The combinators build the bodies of the document's definitions, under the same names. -/
def BuiltBy (document : Document) (definitions : List (Definition (Except SchemaError))) : Prop :=
  List.Forall₂ (fun definition entry => definition.Builds entry.1 entry.2)
    definitions document.definitions

theorem BuiltBy.same_names (built : document.BuiltBy definitions) :
    definitions.map Definition.name = document.names := by
  rw [names, Entries.keys, ← List.forall₂_eq_eq_eq, List.forall₂_map_left_iff,
    List.forall₂_map_right_iff]
  exact built.imp fun _ _ builds => builds.name

/-- Where the root can be lowered, a compilation fails exactly with the closing of a definition. -/
theorem compile_of_root (keyed : document.Keyed) (lowered : document.Lowered serial bodies)
    (ran : document.root.lower (document.symbols serial) = .ok raw) :
    (∃ error,
        (document.group serial bodies).closeNamed (document.symbols serial) = .error error ∧
        document.compile serial = .error error) ∨
      ∃ table root,
        (document.group serial bodies).closeNamed (document.symbols serial) = .ok table ∧
        (document.group serial bodies).closeType raw = .ok root ∧
        document.compile serial = .ok ⟨root, table⟩ := by
  rcases closing_outcome keyed lowered with ⟨acyclic, table, closes⟩ |
    ⟨_, _, _, name, _, _, _, _, failed⟩
  · obtain ⟨root, done⟩ := root_closes keyed lowered acyclic ran
    exact .inr ⟨table, root, closes, done,
      compile_of_stages (map_ok_iff.mpr lowered) rfl closes ran done⟩
  · refine .inl ⟨_, failed, ?_⟩
    rw [compile_of_lowered lowered, failed]
    rfl

/-- The system of a document's definitions closes them as the document does. -/
theorem fix_definitions (keyed : document.Keyed) (built : document.BuiltBy definitions)
    (lowered : document.Lowered serial bodies) :
    fix serial definitions =
      (document.group serial bodies).closeNamed (document.symbols serial) := by
  have distinct : (definitions.map Definition.name).Nodup := by
    rw [built.same_names]
    exact keyed.definitions
  have drafted : List.Forall₂ (fun definition body => definition.body
      ⟨numbered serial (definitions.map Definition.name)⟩ = .ok ⟨body, []⟩) definitions bodies := by
    rw [built.same_names]
    refine (partners_compose built lowered).imp ?_
    rintro definition body ⟨entry, _, builds, ran⟩
    exact builds.body ⟨document.symbols serial⟩ body ran
  rw [fix_of_bodies distinct drafted, built.same_names]
  rfl

/-! ## The root as the last definition -/

/-- The group of the document, and the root in it under a symbol of its own. -/
def grown (document : Document) (serial : Nat) (bodies : List Descriptor) (own : Symbol)
    (raw : Descriptor) : Group :=
  ⟨(document.group serial bodies).bodies ++ [(own, raw)]⟩

theorem grown_agrees (keyed : document.Keyed) (lowered : document.Lowered serial bodies) :
    Group.Agree (fun symbol => ∃ name, Entries.find? (document.symbols serial) name = some symbol)
      (document.group serial bodies) (document.grown serial bodies own raw) where
  same symbol named := by
    obtain ⟨name, found⟩ := named
    obtain ⟨body, bound⟩ := body_of_symbol keyed lowered found
    have first : (document.group serial bodies).bodies.lookup symbol = some body := bound
    rw [Group.body?, Group.body?, grown, List.lookup_append, first, Option.some_or]
  onward symbol body _ bound next mentioned := by
    obtain ⟨entry, listed, _, ran⟩ := (body_iff keyed lowered).mp bound
    obtain ⟨name, found, _⟩ :=
      (Node.occurs_lower Node.corresponds_any (keyed.bodies entry listed) ran).mp mentioned
    exact ⟨name, found⟩

/-- Under a symbol that nothing refers to, the root closes as it does by itself. -/
theorem close_last (keyed : document.Keyed) (lowered : document.Lowered serial bodies)
    (ran : document.root.lower (document.symbols serial) = .ok raw)
    (fresh : own ∉ Entries.values (document.symbols serial))
    (closes : (document.group serial bodies).closeType raw = .ok closed) :
    (document.grown serial bodies own raw).close own = .ok closed := by
  have unbound : (document.group serial bodies).bodies.lookup own = none := by
    refine List.lookup_eq_none_iff.mpr fun row listed => ?_
    have known : row.1 ∈ Entries.values (document.symbols serial) := by
      rw [← group_symbols lowered]
      exact List.mem_map_of_mem listed
    simpa using fun same : own = row.1 => fresh (same ▸ known)
  have found : (document.grown serial bodies own raw).body? own = some raw := by
    rw [Group.body?, grown, List.lookup_append, unbound, Option.none_or]
    exact List.lookup_cons_self
  have stack : ∀ symbol, (∃ name, Entries.find? (document.symbols serial) name = some symbol) →
      (symbol ∈ ([] : List Symbol) ↔ symbol ∈ [own]) := by
    rintro symbol ⟨name, found⟩
    have known : symbol ∈ Entries.values (document.symbols serial) :=
      List.mem_map_of_mem (f := Prod.snd) (Entries.mem_of_find found)
    have other : symbol ≠ own := fun same => fresh (same ▸ known)
    simp [other]
  have inside : ∀ symbol, raw.Mentions symbol →
      ∃ name, Entries.find? (document.symbols serial) name = some symbol := by
    intro symbol mentioned
    obtain ⟨name, found, _⟩ := (Node.occurs_lower Node.corresponds_any keyed.root ran).mp mentioned
    exact ⟨name, found⟩
  obtain ⟨walked, walks, none, rfl⟩ := Group.walk_of_close closes
  have under : (document.grown serial bodies own raw).walk [own] raw = .ok walked :=
    (Group.walk_frame (grown_agrees keyed lowered) stack inside).symm.trans walks
  have kept : walked.bindCycle own = .ok walked := by
    rw [Walked.bindCycle, none, if_neg List.not_mem_nil]
  have whole : (document.grown serial bodies own raw).walk [] (.reference own) = .ok walked := by
    rw [Group.walk_expanded List.not_mem_nil found, under]
    exact kept
  rw [Group.close, Group.close_of_walk whole, none]
  rfl

/-- The definitions close in the larger group as they do in that of the document. -/
theorem close_named_grown (keyed : document.Keyed) (lowered : document.Lowered serial bodies)
    (own : Symbol) (raw : Descriptor) :
    (document.grown serial bodies own raw).closeNamed (document.symbols serial) =
      (document.group serial bodies).closeNamed (document.symbols serial) := by
  have distinct : Entries.Distinct (document.symbols serial) := by
    rw [Entries.Distinct, keys_symbols]
    exact keyed.definitions
  refine map_congr fun entry listed => ?_
  have same : (document.group serial bodies).close entry.2 =
      (document.grown serial bodies own raw).close entry.2 := by
    refine Group.close_type_frame (grown_agrees keyed lowered) fun symbol mentioned => ?_
    obtain rfl := Descriptor.occurs_reference.mp mentioned
    exact ⟨entry.1, Entries.find_of_mem distinct listed⟩
  simp only [same]

private theorem lower_grown (more : Entries Symbol) {symbols : Entries Symbol} {node : Node}
    (ran : node.lower symbols = .ok body) : node.lower (symbols ++ more) = .ok body := by
  rw [← ran]
  refine (Node.lower_frame fun name inside => ?_).symm
  have known : name ∈ Entries.keys symbols := Node.lower_ok_iff.mp ⟨body, ran⟩ _ inside
  obtain ⟨symbol, found⟩ : ∃ symbol, symbols.lookup name = some symbol := by
    rw [← Option.ne_none_iff_exists']
    exact fun none => Entries.find_eq_none_iff.mp none known
  rw [Entries.find?, Entries.find?, List.lookup_append, found, Option.some_or]

/-- With the root as its last definition, under a new name, the system closes the definitions and
the root as the document does. -/
theorem fix_with_root (keyed : document.Keyed) (built : document.BuiltBy definitions)
    (builtRoot : last.Builds last.name document.root) (fresh : last.name ∉ document.names)
    (lowered : document.Lowered serial bodies)
    (ran : document.root.lower (document.symbols serial) = .ok raw) :
    fix serial (definitions ++ [last]) = (document.compile serial).map fun schema =>
      schema.definitions ++ [(last.name, schema.root)] := by
  let own : Symbol := ⟨serial + document.names.length, last.name⟩
  have names : (definitions ++ [last]).map Definition.name = document.names ++ [last.name] := by
    rw [List.map_append, built.same_names]
    rfl
  have table : numbered serial (document.names ++ [last.name]) =
      document.symbols serial ++ [(last.name, own)] := numbered_append serial _ _
  have distinct : ((definitions ++ [last]).map Definition.name).Nodup := by
    rw [names]
    refine List.nodup_append.mpr ⟨keyed.definitions, List.nodup_singleton _, ?_⟩
    rintro name known _ new rfl
    exact fresh (List.mem_singleton.mp new ▸ known)
  have drafted : List.Forall₂ (fun definition body => definition.body
      ⟨numbered serial ((definitions ++ [last]).map Definition.name)⟩ = .ok ⟨body, []⟩)
      (definitions ++ [last]) (bodies ++ [raw]) := by
    rw [names, table]
    refine List.rel_append ?_ (.cons ?_ .nil)
    · refine (partners_compose built lowered).imp ?_
      rintro definition body ⟨entry, _, builds, ran⟩
      exact builds.body ⟨_⟩ body (lower_grown _ ran)
    · exact builtRoot.body ⟨_⟩ raw (lower_grown _ ran)
  have group : Group.mk ((Entries.values (document.symbols serial ++ [(last.name, own)])).zip
      (bodies ++ [raw])) = document.grown serial bodies own raw := by
    have counted : (Entries.values (document.symbols serial)).length = bodies.length := by
      rw [← lowered.length_eq]
      simp [Entries.values, symbols, Entries.keys]
    rw [Entries.values, List.map_append]
    exact congrArg Group.mk (List.zip_append counted)
  rw [fix_of_bodies distinct drafted, names, table, group, Group.close_named_append,
    close_named_grown keyed lowered]
  rcases compile_of_root keyed lowered ran with ⟨error, failed, same⟩ |
    ⟨closes, root, all, done, compiled⟩
  · rw [failed, same]
    rfl
  · have new : own ∉ Entries.values (document.symbols serial) := by
      have apart := numbered_nodup serial (document.names ++ [last.name])
      rw [table, Entries.values, List.map_append] at apart
      exact fun known => (List.nodup_append.mp apart).2.2 own known own List.mem_cons_self rfl
    rw [all, compiled]
    change (do .ok (closes ++ [(last.name,
      ← (document.grown serial bodies own raw).close own)])) = _
    rw [close_last keyed lowered ran new done]
    rfl

/-! ## One definition -/

/-- A definition closed by itself, under whatever symbol shows its name, is a renaming away from the
closed system that it makes up. -/
theorem fix_one_renames {me : Symbol} (lowered : document.Lowered serial bodies)
    (single : document.definitions = [(name, node)]) (shown : me.description = name)
    (ran : node.lower [(name, me)] = .ok body) :
    ∃ rename : Renaming, (fixOne me body).map (fun closed => [(name, closed)]) =
      ((document.group serial bodies).closeNamed (document.symbols serial)).map
        (renamedTable rename) := by
  have names : document.names = [name] := by
    rw [Document.names, single]
    rfl
  obtain ⟨rename, moved⟩ : ∃ rename : Renaming,
      renamedSymbols rename (document.symbols serial) = [(name, me)] := by
    refine Renaming.between_tables ?_ (numbered_nodup serial _) (List.nodup_singleton me) ?_
    · rw [keys_symbols, names]
      rfl
    · rw [symbols_eq, names]
      simp [numbered, shown]
  refine ⟨rename, ?_⟩
  have closed : (document.group serial bodies).renamed rename = ⟨[(me, body)]⟩ := by
    rw [Lowered, single] at lowered
    obtain ⟨own, rest, drawn, tail, rfl⟩ := List.forall₂_cons_left_iff.mp lowered
    obtain rfl := List.forall₂_nil_left_iff.mp tail
    have same : body = own.renamed rename := by
      rw [← moved, Node.lower_renamed, drawn] at ran
      exact (Except.ok.inj ran).symm
    rw [group_renamed, moved, same]
    rfl
  rw [← Group.close_named_renamed, moved, closed]
  cases done : Group.close ⟨[(me, body)]⟩ me <;> simp [Group.closeNamed, fixOne, done] <;> rfl

/-- A document and the systems that build its bodies fail alike, or close every definition and the
root to descriptors that are a renaming apart, and that no cast tells from each other. -/
theorem front_ends_agree (keyed : document.Keyed)
    (sound : ∀ entry ∈ document.definitions, ∀ node ∈ entry.2.nodes, node.Sound document.names)
    (rootSound : ∀ node ∈ document.root.nodes, node.Sound document.names)
    (built : document.BuiltBy definitions) (builtRoot : last.Builds last.name document.root)
    (fresh : last.name ∉ document.names) (serial other : Nat) :
    (∃ rename : Renaming,
      fix other definitions = (document.compile serial).map (fun schema =>
        renamedTable rename schema.definitions) ∧
      fix other (definitions ++ [last]) = (document.compile serial).map fun schema =>
        renamedTable rename (schema.definitions ++ [(last.name, schema.root)])) ∧
    (∀ me name node body, document.definitions = [(name, node)] → me.description = name →
      node.lower [(name, me)] = .ok body →
      (∃ rename : Renaming, (fixOne me body).map (fun closed => [(name, closed)]) =
        (document.compile serial).map fun schema => renamedTable rename schema.definitions) ∧
      ∃ rename : Renaming, (fixOne me body).map (fun closed => [(name, closed)]) =
        (fix other definitions).map (renamedTable rename)) ∧
    ∀ schema, document.compile serial = .ok schema →
      ∀ entry ∈ schema.definitions ++ [(last.name, schema.root)], ∀ (rename : Renaming) actual,
        (∀ budget, castWithin budget [] (entry.2.renamed rename) actual =
          castWithin budget [] entry.2 actual) ∧
        (entry.2.renamed rename).cast actual = entry.2.cast actual := by
  have lowers : ∀ serial, ∃ bodies raw, document.Lowered serial bodies ∧
      document.root.lower (document.symbols serial) = .ok raw := by
    intro serial
    obtain ⟨bodies, lowered⟩ := lowered_of_no_fault (definition_fault_eq_none_iff.mpr sound) serial
    rw [← keys_symbols serial] at rootSound
    obtain ⟨raw, ran⟩ := Node.lower_ok_iff.mpr rootSound
    exact ⟨bodies, raw, lowered, ran⟩
  have named : ∀ serial bodies, document.Lowered serial bodies →
      (document.group serial bodies).closeNamed (document.symbols serial) =
        (document.compile serial).map Schema.definitions := by
    intro serial bodies lowered
    obtain ⟨_, raw, _, ran⟩ := lowers serial
    rcases compile_of_root keyed lowered ran with ⟨error, failed, same⟩ | ⟨_, _, closes, _, done⟩
    · rw [failed, same]
      rfl
    · rw [closes, done]
      rfl
  obtain ⟨bodies, raw, lowered, ran⟩ := lowers serial
  obtain ⟨others, rawOther, loweredOther, ranOther⟩ := lowers other
  refine ⟨?_, ?_, ?_⟩
  · obtain ⟨rename, moved⟩ := symbols_renamed serial other document
    have compiled := compile_renamed moved
    refine ⟨rename, ?_, ?_⟩
    · rw [fix_definitions keyed built loweredOther, named other others loweredOther, compiled]
      cases document.compile serial <;> rfl
    · rw [fix_with_root keyed built builtRoot fresh loweredOther ranOther, compiled]
      cases document.compile serial with
      | error error => rfl
      | ok schema => simp [Except.map, Schema.renamed, renamedTable, Entries.mapValues]
  · intro me name node body single shown lowers
    constructor
    · obtain ⟨rename, same⟩ := fix_one_renames lowered single shown lowers
      refine ⟨rename, ?_⟩
      rw [same, named serial bodies lowered]
      cases document.compile serial <;> rfl
    · obtain ⟨rename, same⟩ := fix_one_renames loweredOther single shown lowers
      refine ⟨rename, ?_⟩
      rw [same, fix_definitions keyed built loweredOther]
  · intro schema compiled entry listed rename actual
    obtain ⟨group, _, ⟨root, _, closes⟩, each⟩ := compile_closes compiled
    rcases List.mem_append.mp listed with known | new
    · obtain ⟨raw, _, closes⟩ := each entry known
      exact cast_renamed_of_close closes rename actual
    · obtain rfl := List.mem_singleton.mp new
      exact cast_renamed_of_close closes rename actual

/-- Trees of text, written as a document, built by combinators and tied by one binder: a renaming
apart, and of one meaning. -/
theorem text_trees_agree :
    let document : Document := ⟨.record (.reference "tree"),
      [("tree", .union [.atom "string", .array (.reference "tree")])]⟩
    let tree : Definition (Except SchemaError) := ⟨"tree", fun placeholders =>
      let own := placeholders.get "tree"
      .ok ⟨.union [.primitive .string, .array own.descriptor], own.missing⟩⟩
    let forest : Definition (Except SchemaError) := ⟨"forest", fun placeholders =>
      let tree := placeholders.get "tree"
      .ok ⟨.record tree.descriptor, tree.missing⟩⟩
    let body (own : Symbol) : Descriptor := .union [.primitive .string, .array (.reference own)]
    let closed (own : Symbol) : Descriptor := .recursive own (body own)
    document.compile 0 = .ok ⟨.record (closed ⟨0, "tree"⟩), [("tree", closed ⟨0, "tree"⟩)]⟩ ∧
      fix 7 [tree, forest] =
        .ok [("tree", closed ⟨7, "tree"⟩), ("forest", .record (closed ⟨7, "tree"⟩))] ∧
      fixOne ⟨3, "tree"⟩ (body ⟨3, "tree"⟩) = .ok (closed ⟨3, "tree"⟩) ∧
      ∀ actual, (Descriptor.record (closed ⟨7, "tree"⟩)).cast actual =
          (Descriptor.record (closed ⟨0, "tree"⟩)).cast actual ∧
        (closed ⟨3, "tree"⟩).cast actual = (closed ⟨0, "tree"⟩).cast actual := by
  intro document tree forest body closed
  have lowers : ∀ (symbols : Entries Symbol) (node : Node),
      (node = .union [.atom "string", .array (.reference "tree")] ∨
        node = .record (.reference "tree")) →
      ∀ body, node.lower symbols = .ok body → ∃ symbol, Entries.find? symbols "tree" = some symbol := by
    intro symbols node either body ran
    have known : "tree" ∈ Entries.keys symbols := by
      refine Node.lower_ok_iff.mp ⟨body, ran⟩ (.reference "tree") ?_
      rcases either with rfl | rfl <;> simp [Node.nodes, Node.nodesAll]
    rw [← Option.ne_none_iff_exists']
    exact fun none => Entries.find_eq_none_iff.mp none known
  have builtTree : document.BuiltBy [tree] := by
    refine .cons ⟨rfl, fun placeholders body ran => ?_⟩ .nil
    obtain ⟨symbol, found⟩ := lowers _ _ (.inl rfl) body ran
    simp only [Node.lower, Node.lowerAll, found] at ran
    cases ran
    simp only [tree, Placeholders.get, found]
  have builtForest : forest.Builds forest.name document.root := by
    refine ⟨rfl, fun placeholders body ran => ?_⟩
    obtain ⟨symbol, found⟩ := lowers _ _ (.inr rfl) body ran
    simp only [document, Node.lower, found] at ran
    cases ran
    simp only [forest, Placeholders.get, found]
  have sound : ∀ entry ∈ document.definitions, ∀ node ∈ entry.2.nodes,
      node.Sound document.names := definition_fault_eq_none_iff.mp (by decide)
  have rootSound : ∀ node ∈ document.root.nodes, node.Sound document.names :=
    root_fault_eq_none_iff.mp (by decide)
  obtain ⟨⟨rename, _, whole⟩, single, casts⟩ := front_ends_agree
    ⟨by decide, by decide, by decide⟩ sound rootSound builtTree builtForest (by decide) 0 7
  have compiled : document.compile 0 =
      .ok ⟨.record (closed ⟨0, "tree"⟩), [("tree", closed ⟨0, "tree"⟩)]⟩ := by
    let group : Group := ⟨[(⟨0, "tree"⟩, body ⟨0, "tree"⟩)]⟩
    have tree_closes : group.closeType (.reference ⟨0, "tree"⟩) = .ok (closed ⟨0, "tree"⟩) := by
      cbv
    have root_closes : group.closeType (.record (.reference ⟨0, "tree"⟩)) =
        .ok (.record (closed ⟨0, "tree"⟩)) := by cbv
    exact compile_of_stages rfl rfl (Group.close_each (.cons ⟨rfl, tree_closes⟩ .nil)) rfl root_closes
  have fixed : fix 7 [tree, forest] =
      .ok [("tree", closed ⟨7, "tree"⟩), ("forest", .record (closed ⟨7, "tree"⟩))] := by
    let group : Group := ⟨[(⟨7, "tree"⟩, body ⟨7, "tree"⟩),
      (⟨8, "forest"⟩, .record (.reference ⟨7, "tree"⟩))]⟩
    have tree_closes : group.closeType (.reference ⟨7, "tree"⟩) = .ok (closed ⟨7, "tree"⟩) := by
      cbv
    have forest_closes : group.closeType (.reference ⟨8, "forest"⟩) =
        .ok (.record (closed ⟨7, "tree"⟩)) := by cbv
    rw [fix_of_bodies (by decide) (.cons rfl (.cons rfl .nil))]
    exact Group.close_each (.cons ⟨rfl, tree_closes⟩ (.cons ⟨rfl, forest_closes⟩ .nil))
  have tied : fixOne ⟨3, "tree"⟩ (body ⟨3, "tree"⟩) = .ok (closed ⟨3, "tree"⟩) := by cbv
  obtain ⟨⟨renameOne, one⟩, _⟩ := single ⟨3, "tree"⟩ "tree" _ (body ⟨3, "tree"⟩) rfl rfl rfl
  rw [compiled] at whole one
  rw [tied] at one
  have both := Except.ok.inj (fixed.symm.trans whole)
  have forest_moved : .record (closed ⟨7, "tree"⟩) =
      (Descriptor.record (closed ⟨0, "tree"⟩)).renamed rename :=
    (Prod.mk.inj (List.cons.inj (List.cons.inj both).2).1).2
  have tree_moved : closed ⟨3, "tree"⟩ = (closed ⟨0, "tree"⟩).renamed renameOne :=
    (Prod.mk.inj (List.cons.inj (Except.ok.inj one)).1).2
  refine ⟨compiled, fixed, tied, fun actual => ⟨?_, ?_⟩⟩
  · rw [forest_moved]
    exact (casts _ compiled _ (List.mem_append_right _ List.mem_cons_self) rename actual).2
  · rw [tree_moved]
    exact (casts _ compiled _ List.mem_cons_self renameOne actual).2

end Document
end Readings
