import Readings.CommandLine.Run
import Readings.Proofs.CommandLine.Selection
import Readings.Proofs.Files.Looking

/-!
Loading what a check needs. On a steady host the schema, the paths of the inputs and the documents
are settled by the files and the standard input at the start: each step either gets what it is after
or fails for a reason that is found there, and none of them changes a file (`Keeps`). Standard input
goes to the first source that asks for it.
-/
namespace Readings.CommandLine

open Files (Host Looks View)

/-- Tools on a steady host, whose patterns only look at it. -/
structure Tools.Steady (tools : Tools (StateM σ)) : Prop where
  host : tools.host.Steady
  paths : ∀ text, Looks (tools.paths text).run

theorem looks_lift {action : StateM σ α} {next : α → ExceptT Failure (StateM σ) β}
    (first : Looks action) (second : ∀ value, Looks (next value).run) :
    Looks (liftM action >>= next).run :=
  first.bind second

theorem paths_on_looks {host : Host (StateM σ)} (steady : host.Steady) (text : String) :
    Looks (pathsOn host text).run := by
  unfold pathsOn
  split
  · exact .pure _
  · refine looks_lift (Files.search_looks steady _) fun found => ?_
    split <;> exact .pure _

theorem Tools.of_host_steady {host : Host (StateM σ)} (steady : host.Steady) :
    (Tools.ofHost host).Steady :=
  ⟨steady, paths_on_looks steady⟩

/-! ## Runs taken apart -/

/-- One action after another goes on where the first ended, unless that failed. -/
theorem run_bind {action : ExceptT Failure (StateM σ) α} {next : α → ExceptT Failure (StateM σ) β}
    (ran : action.run.run s = (result, after)) :
    (action >>= next).run.run s = (ExceptT.bindCont next result).run after :=
  congrArg (fun step : Except Failure α × σ => (ExceptT.bindCont next step.1).run step.2) ran

theorem run_lift (action : StateM σ α) (next : α → ExceptT Failure (StateM σ) β) (s : σ) :
    (liftM action >>= next).run.run s = (next (action.run s).1).run.run (action.run s).2 :=
  rfl

/-- An action whose failures end the run succeeded where the run went on to a result. -/
theorem ok_of_lift {action : StateM σ (Except ε α)}
    {next : Except ε α → ExceptT Failure (StateM σ) β} {reason : ε → Failure}
    (ran : (liftM action >>= next).run.run s = (.ok value, after))
    (ends : ∀ error, next (.error error) = throw (reason error)) :
    ∃ result middle, action.run s = (.ok result, middle) ∧
      (next (.ok result)).run.run middle = (.ok value, after) := by
  rw [run_lift] at ran
  rcases acted : action.run s with ⟨result, middle⟩
  rw [acted] at ran
  cases result with
  | error error =>
    rw [ends] at ran
    cases ran
  | ok result => exact ⟨result, middle, rfl, ran⟩

/-! ## Actions that change no file -/

/-- From a state, an action leaves the files as they are. Its result is what a relation asks for, or
a failure that a condition explains. -/
def Keeps (host : Host (StateM σ)) (s : σ) (action : ExceptT Failure (StateM σ) α)
    (yields : α → σ → Prop) (fails : Prop) : Prop :=
  ∃ result after, action.run.run s = (result, after) ∧ host.view after = host.view s ∧
    Settles result (yields · after) fails

namespace Keeps
variable {host : Host (StateM σ)}

theorem pure {value : α} (holds : yields value s) : Keeps host s (Pure.pure value) yields fails :=
  ⟨.ok value, s, rfl, rfl, holds⟩

theorem throw {failure : Failure} (explained : fails) :
    Keeps host s (MonadExcept.throw failure) (yields : α → σ → Prop) fails :=
  ⟨.error failure, s, rfl, rfl, explained⟩

theorem bind {action : ExceptT Failure (StateM σ) α} {next : α → ExceptT Failure (StateM σ) β}
    (first : Keeps host s action middle fails)
    (onward : ∀ value after, host.view after = host.view s → middle value after →
      Keeps host after (next value) yields fails) :
    Keeps host s (action >>= next) yields fails := by
  obtain ⟨result, after, ran, same, settled⟩ := first
  cases result with
  | error failure => exact ⟨.error failure, after, run_bind ran, same, settled⟩
  | ok value =>
    obtain ⟨result, last, onwards, still, settled⟩ := onward value after same settled
    exact ⟨result, last, (run_bind ran).trans onwards, still.trans same, settled⟩

/-- A result that was found without the host. -/
theorem lift {result : Except Failure α} (settled : Settles result (yields · s) fails) :
    Keeps host s (liftM result) yields fails :=
  ⟨result, s, rfl, rfl, settled⟩

/-- What an action that only looks finds in a state. -/
theorem look {action : StateM σ α} (looks : Looks action) :
    Keeps host s (liftM action) (fun value after => after = s ∧ value = (action.run s).1) fails :=
  ⟨.ok (action.run s).1, s,
    congrArg (fun step : α × σ => (Except.ok step.1, step.2)) (looks.run_eq s), rfl, rfl, rfl⟩

/-- Reading standard input takes all of it. -/
theorem drain (steady : host.Steady) :
    Keeps host s (liftM host.input)
      (fun bytes after => after = host.drained s ∧ bytes = host.left s) fails :=
  ⟨.ok (host.left s), host.drained s, rfl, steady.drained_view s, rfl, rfl⟩

/-- The same for an action that can fail. -/
theorem attempt {action : ExceptT Failure (StateM σ) α} (looks : Looks action.run)
    (settled : Settles (action.run.run s).1 yields fails) :
    Keeps host s action (fun value after => after = s ∧ yields value) fails := by
  refine ⟨(action.run.run s).1, s, looks.run_eq s, rfl, ?_⟩
  cases found : (action.run.run s).1 with
  | ok value =>
    rw [found] at settled
    exact ⟨rfl, settled⟩
  | error failure =>
    rw [found] at settled
    exact settled

theorem explained {action : ExceptT Failure (StateM σ) α} (kept : Keeps host s action yields fails)
    (explains : fails → others) : Keeps host s action yields others := by
  obtain ⟨result, after, ran, same, settled⟩ := kept
  exact ⟨result, after, ran, same, settled.imp (fun _ holds => holds) explains⟩

/-- Doing one thing after the other, as long as each leaves the state as it is. -/
theorem each {f : α → ExceptT Failure (StateM σ) β} {R : α → β → Prop} {items : List α}
    (each : ∀ item ∈ items,
      Keeps host s (f item) (fun value after => after = s ∧ R item value) fails) :
    Keeps host s (items.mapM f) (fun values after => after = s ∧ List.Forall₂ R items values)
      fails := by
  induction items with
  | nil => exact .pure ⟨rfl, .nil⟩
  | cons item rest ih =>
    rw [List.mapM_cons]
    refine (each item List.mem_cons_self).bind fun value _ _ ⟨same, first⟩ => ?_
    subst same
    refine (ih fun other listed => each other (List.mem_cons_of_mem _ listed)).bind
      fun values _ _ ⟨same, others⟩ => ?_
    subst same
    exact .pure ⟨rfl, .cons first others⟩

end Keeps

/-! ## The schema -/

variable {tools : Tools (StateM σ)} {s : σ}

/-- A file holds a schema. -/
def HoldsSchema (view : View) (path : String) (schema : Schema) : Prop :=
  ∃ bytes, view.read path = .ok bytes ∧ Schema.ofBytes 0 bytes = .ok schema

/-- What goes wrong with a schema. -/
inductive SchemaFails (view : View) (path : String) : Prop where
  | unread (refused : view.read path = .error error)
  | invalid (read : view.read path = .ok bytes) (refused : Schema.ofBytes 0 bytes = .error error)

theorem HoldsSchema.unique {view : View} (held : HoldsSchema view path schema)
    (again : HoldsSchema view path other) : schema = other := by
  obtain ⟨bytes, read, valid⟩ := held
  obtain ⟨_, reread, revalid⟩ := again
  cases read.symm.trans reread
  exact Except.ok.inj (valid.symm.trans revalid)

theorem SchemaFails.not_holds {view : View} (fails : SchemaFails view path) :
    ¬ HoldsSchema view path schema := by
  rintro ⟨bytes, read, valid⟩
  cases fails with
  | unread refused =>
    rw [read] at refused
    cases refused
  | invalid again refused =>
    cases again.symm.trans read
    rw [valid] at refused
    cases refused

theorem schema_keeps (steady : tools.Steady) (path : String) :
    Keeps tools.host s (loadSchema tools path)
      (fun schema after => after = s ∧ HoldsSchema (tools.host.view s) path schema)
      (SchemaFails (tools.host.view s) path) := by
  unfold loadSchema
  refine (Keeps.look (steady.host.read path)).bind fun read _ _ ⟨same, found⟩ => ?_
  subst same
  cases read with
  | error error => exact .throw (.unread found.symm)
  | ok bytes =>
    dsimp only
    cases valid : Schema.ofBytes 0 bytes with
    | error error => exact .throw (.invalid found.symm valid)
    | ok schema => exact .pure ⟨rfl, bytes, found.symm, valid⟩

/-! ## The inputs -/

/-- The characters that make an input a pattern. -/
def patternMarks : List Char := ['*', '?', '[', '\x7b']

/-- An input that is a pattern. -/
def Marked (input : String) : Prop := ∃ mark ∈ patternMarks, mark ∈ input.toList

theorem is_pattern_iff {input : String} : Files.isPattern input = true ↔ Marked input := by
  simp only [Files.isPattern, Marked, patternMarks, List.any_eq_true, Bool.or_eq_true,
    decide_eq_true_eq, List.mem_cons, List.not_mem_nil, or_false, or_assoc]
  exact exists_congr fun mark => and_comm

instance (input : String) : Decidable (Marked input) := decidable_of_iff _ is_pattern_iff

/-- The paths that an input stands for: itself, or what its pattern finds. -/
inductive Resolves (tools : Tools (StateM σ)) (s : σ) (input : String) : List String → Prop where
  | path (plain : ¬ Marked input) : Resolves tools s input [input]
  | pattern (marked : Marked input)
      (found : ((tools.paths input).run.run s).1 = .ok (first :: rest)) :
      Resolves tools s input (first :: rest)

/-- What goes wrong with an input. -/
inductive InputFails (tools : Tools (StateM σ)) (s : σ) (input : String) : Prop where
  | refused (marked : Marked input) (refused : ((tools.paths input).run.run s).1 = .error reason)
  | unmatched (marked : Marked input) (nothing : ((tools.paths input).run.run s).1 = .ok [])

theorem Resolves.unique (resolves : Resolves tools s input found)
    (again : Resolves tools s input other) : found = other := by
  cases resolves with
  | path plain =>
    cases again with
    | path => rfl
    | pattern marked => exact absurd marked plain
  | pattern marked found =>
    cases again with
    | path plain => exact absurd marked plain
    | pattern _ same => exact Except.ok.inj (found.symm.trans same)

theorem resolved_once : Relator.RightUnique (List.Forall₂ (Resolves tools s)) :=
  Relator.RightUnique.forall₂ fun _ _ _ => Resolves.unique

theorem InputFails.not_resolves (fails : InputFails tools s input) :
    ¬ Resolves tools s input found := by
  intro resolves
  cases resolves with
  | path plain => cases fails <;> contradiction
  | pattern marked found => cases fails <;> simp_all

theorem input_keeps (steady : tools.Steady) (input : String) :
    Keeps tools.host s (resolveInput tools input)
      (fun found after => after = s ∧ Resolves tools s input found) (InputFails tools s input) := by
  unfold resolveInput
  by_cases marked : Marked input
  · have searches : Keeps tools.host s (tools.paths input) (fun found after => after = s ∧
        ((tools.paths input).run.run s).1 = .ok found) (InputFails tools s input) := by
      refine .attempt (steady.paths input) ?_
      cases ran : ((tools.paths input).run.run s).1 with
      | ok found => exact rfl
      | error reason => exact InputFails.refused marked ran
    rw [is_pattern_iff.mpr marked]
    refine searches.bind fun found _ _ ⟨same, ran⟩ => ?_
    subst same
    cases found with
    | nil => exact .throw (.unmatched marked ran)
    | cons first rest => exact .pure ⟨rfl, .pattern marked ran⟩
  · rw [eq_false_of_ne_true (is_pattern_iff.not.mpr marked)]
    exact .pure ⟨rfl, .path marked⟩

/-! ## The sources -/

/-- The source at a path: standard input, of which this much is left, or a file. -/
def sourceAt (view : View) (left : List UInt8) (path : String) : Source :=
  ⟨path, if Files.isHyphen path then .ok left else view.read path⟩

/-- What is left of standard input behind a source. -/
def leftBehind (left : List UInt8) (path : String) : List UInt8 :=
  if Files.isHyphen path then [] else left

/-- The sources at paths. The first that is standard input has all of it. -/
def sources (view : View) (left : List UInt8) : List String → List Source
  | [] => []
  | path :: rest => sourceAt view left path :: sources view (leftBehind left path) rest

/-- Where no path is a hyphen, the sources are files. -/
theorem sources_of_files {view : View} (files : ∀ path ∈ paths, Files.isHyphen path = false)
    (left : List UInt8) :
    sources view left paths = paths.map fun path => ⟨path, view.read path⟩ := by
  induction paths generalizing left with
  | nil => rfl
  | cons path rest ih =>
    have plain := files path List.mem_cons_self
    have others := ih fun other listed => files other (List.mem_cons_of_mem _ listed)
    rw [sources, sourceAt, plain, others]
    rfl

theorem text_keeps (steady : tools.Steady) (path : String)
    (source : sourceAt (tools.host.view s) (tools.host.left s) path = ⟨path, content⟩) :
    Keeps tools.host s (readSource tools path)
      (fun text after => tools.host.left after = leftBehind (tools.host.left s) path ∧
        ∃ bytes, content = .ok bytes ∧ Text.Utf8.decode bytes = .ok text)
      (SourceFails evaluate settings ⟨path, content⟩) := by
  have content_eq : content =
      if Files.isHyphen path then .ok (tools.host.left s) else (tools.host.view s).read path :=
    (congrArg Source.content source).symm
  unfold readSource
  extract_lets decode
  have decodes {read : Except Files.FileError (List UInt8)} {after : σ} (found : content = read)
      (left : tools.host.left after = leftBehind (tools.host.left s) path) :
      Keeps tools.host after (decode read)
        (fun text after => tools.host.left after = leftBehind (tools.host.left s) path ∧
          ∃ bytes, content = .ok bytes ∧ Text.Utf8.decode bytes = .ok text)
        (SourceFails evaluate settings ⟨path, content⟩) := by
    dsimp only [decode]
    cases read with
    | error error => exact .throw (.unread found)
    | ok bytes =>
      dsimp only
      cases decoded : Text.Utf8.decode bytes with
      | error offset => exact .throw (.undecoded found decoded)
      | ok text => exact .pure ⟨left, bytes, found, decoded⟩
  by_cases hyphen : Files.isHyphen path = true
  · rw [if_pos hyphen] at content_eq ⊢
    refine (Keeps.drain steady.host).bind fun bytes _ _ ⟨same, all⟩ => ?_
    subst same all
    refine decodes content_eq ?_
    rw [leftBehind, if_pos hyphen, steady.host.drained_left]
  · rw [if_neg hyphen] at content_eq ⊢
    refine (Keeps.look (steady.host.read path)).bind fun read _ _ ⟨same, found⟩ => ?_
    subst same found
    refine decodes content_eq ?_
    rw [leftBehind, if_neg hyphen]

theorem source_keeps (steady : tools.Steady) (settings : InputSettings) (path : String)
    (source : sourceAt (tools.host.view s) (tools.host.left s) path = ⟨path, content⟩) :
    Keeps tools.host s (do documentsOf tools.evaluate settings path (← readSource tools path))
      (fun documents after => tools.host.left after = leftBehind (tools.host.left s) path ∧
        SourceYields tools.evaluate settings ⟨path, content⟩ documents)
      (SourceFails tools.evaluate settings ⟨path, content⟩) := by
  refine (text_keeps steady path source).bind
    fun text after _ ⟨left, bytes, read, decoded⟩ => ?_
  have settled := source_settles tools.evaluate settings path read decoded
  exact .lift (settled.imp (fun _ yields => ⟨left, yields⟩) fun fails => fails)

theorem sources_keep (steady : tools.Steady) (settings : InputSettings) (paths : List String) :
    Keeps tools.host s
      (paths.mapM fun path => do
        documentsOf tools.evaluate settings path (← readSource tools path))
      (fun found _ => List.Forall₂ (SourceYields tools.evaluate settings)
        (sources (tools.host.view s) (tools.host.left s) paths) found)
      (∃ source ∈ sources (tools.host.view s) (tools.host.left s) paths,
        SourceFails tools.evaluate settings source) := by
  induction paths generalizing s with
  | nil => exact .pure .nil
  | cons path rest ih =>
    rw [List.mapM_cons]
    let source := sourceAt (tools.host.view s) (tools.host.left s) path
    have first : Keeps tools.host s
        (do documentsOf tools.evaluate settings path (← readSource tools path))
        (fun documents after => tools.host.left after = leftBehind (tools.host.left s) path ∧
          SourceYields tools.evaluate settings source documents)
        (∃ source ∈ sources (tools.host.view s) (tools.host.left s) (path :: rest),
          SourceFails tools.evaluate settings source) :=
      (source_keeps steady settings path rfl).explained fun fails =>
        ⟨source, List.mem_cons_self, fails⟩
    refine first.bind fun documents after same ⟨left, yields⟩ => ?_
    have others := ih (s := after)
    rw [same, left] at others
    refine (others.explained fun ⟨source, listed, fails⟩ =>
      ⟨source, List.mem_cons_of_mem _ listed, fails⟩).bind fun found last _ more => ?_
    exact .pure (.cons yields more)

/-! ## The documents -/

/-- The inputs of a check have these documents: by input, then by piece, then by output of the
filter. -/
def Provides (tools : Tools (StateM σ)) (s : σ) (settings : InputSettings)
    (documents : List InputDocument) : Prop :=
  ∃ paths found, List.Forall₂ (Resolves tools s) settings.inputs paths ∧
    List.Forall₂ (SourceYields tools.evaluate settings)
      (sources (tools.host.view s) (tools.host.left s) paths.flatten) found ∧
    documents = found.flatten

theorem Provides.unique (provides : Provides tools s settings documents)
    (again : Provides tools s settings others) : documents = others := by
  obtain ⟨paths, found, resolved, yields, rfl⟩ := provides
  obtain ⟨_, _, once, alike, rfl⟩ := again
  cases resolved_once resolved once
  have same : Relator.RightUnique (SourceYields tools.evaluate settings) :=
    fun _ _ _ => SourceYields.unique
  exact congrArg List.flatten (same.forall₂ yields alike)

/-- Some input or source has no documents. -/
inductive InputsFail (tools : Tools (StateM σ)) (s : σ) (settings : InputSettings) : Prop where
  | input (listed : input ∈ settings.inputs) (fails : InputFails tools s input)
  | source (resolved : List.Forall₂ (Resolves tools s) settings.inputs paths)
      (listed : source ∈ sources (tools.host.view s) (tools.host.left s) paths.flatten)
      (fails : SourceFails tools.evaluate settings source)

theorem InputsFail.not_provides (fails : InputsFail tools s settings) :
    ¬ Provides tools s settings documents := by
  rintro ⟨paths, found, resolved, yields, _⟩
  cases fails with
  | input listed fails =>
    obtain ⟨_, _, resolves⟩ := partner_of_left resolved listed
    exact fails.not_resolves resolves
  | source again listed fails =>
    cases resolved_once again resolved
    obtain ⟨_, _, yields⟩ := partner_of_left yields listed
    exact fails.not_yields yields

theorem documents_keep (steady : tools.Steady) (settings : InputSettings) :
    Keeps tools.host s (loadDocuments tools settings)
      (fun documents _ => Provides tools s settings documents) (InputsFail tools s settings) := by
  unfold loadDocuments
  have inputs : Keeps tools.host s (settings.inputs.mapM (resolveInput tools))
      (fun paths after => after = s ∧ List.Forall₂ (Resolves tools s) settings.inputs paths)
      (InputsFail tools s settings) :=
    .each fun input listed => (input_keeps steady input).explained (.input listed)
  refine inputs.bind fun paths _ _ ⟨same, resolved⟩ => ?_
  subst same
  refine ((sources_keep steady settings paths.flatten).explained fun ⟨source, listed, fails⟩ =>
    .source resolved listed fails).bind fun found _ _ yields => ?_
  exact .pure ⟨paths, found, resolved, yields, rfl⟩

/-- Loading gives the documents that its sources yield, and gives them only then. -/
theorem load_ok_iff (steady : tools.Steady) (settings : InputSettings) :
    ((loadDocuments tools settings).run.run s).1 = .ok documents ↔
      Provides tools s settings documents := by
  obtain ⟨result, after, ran, _, settled⟩ := documents_keep (s := s) steady settings
  rw [ran]
  exact settled.ok_iff (fun _ _ => Provides.unique) fun _ provides fails =>
    fails.not_provides provides

end Readings.CommandLine
