import Readings.Files.Search
import Readings.Files.Tree

/-!
Hosts on which looking changes nothing. What a program learns there is settled by the state it
starts in: the files that can be seen (`View`), and what is left of standard input. Searching for
the paths of a pattern only looks (`search_looks`).
-/
namespace Readings.Files

/-- What can be seen of files: contents, and what is at a path or in a directory. -/
structure View where
  read : String → Except FileError (List UInt8)
  isThere : String → Bool
  isDirectory : String → Bool
  names : String → Except FileError (List String)

namespace Host

/-- What a host shows in a state. -/
def view (host : Host (StateM σ)) (s : σ) : View where
  read path := ((host.read path).run s).1
  isThere path := ((host.isThere path).run s).1
  isDirectory path := ((host.isDirectory path).run s).1
  names path := ((host.names path).run s).1

/-- What is left of standard input in a state. -/
def left (host : Host (StateM σ)) (s : σ) : List UInt8 := (host.input.run s).1

/-- The state after standard input was read. -/
def drained (host : Host (StateM σ)) (s : σ) : σ := (host.input.run s).2

end Host

/-- An action that leaves every state as it is. -/
def Looks (action : StateM σ α) : Prop := ∀ s, (action.run s).2 = s

/-- A host where looking changes nothing. Standard input can be read once, and reading it leaves the
files as they are. -/
structure Host.Steady (host : Host (StateM σ)) : Prop where
  read : ∀ path, Looks (host.read path)
  isThere : ∀ path, Looks (host.isThere path)
  isDirectory : ∀ path, Looks (host.isDirectory path)
  names : ∀ path, Looks (host.names path)
  drained_left : ∀ s, host.left (host.drained s) = []
  drained_view : ∀ s, host.view (host.drained s) = host.view s

namespace Looks

theorem pure (value : α) : Looks (σ := σ) (Pure.pure value) := fun _ => rfl

theorem bind {action : StateM σ α} {next : α → StateM σ β} (first : Looks action)
    (second : ∀ value, Looks (next value)) : Looks (action >>= next) := by
  intro s
  have moved : ((action >>= next).run s).2 = ((next (action.run s).1).run (action.run s).2).2 := rfl
  rw [moved, second, first]

/-- An action that only looks has one answer in a state. -/
theorem run_eq {action : StateM σ α} (looks : Looks action) (s : σ) :
    action.run s = ((action.run s).1, s) :=
  Prod.ext rfl (looks s)

end Looks

variable {host : Host (StateM σ)}

theorem gather_looks {action : α → StateM σ (Except Unlisted (List String))}
    (each : ∀ item, Looks (action item)) (items : List α) : Looks (gather items action) := by
  induction items with
  | nil => exact .pure _
  | cons item rest ih =>
    rw [gather]
    refine (each item).bind fun found => ?_
    split
    · exact .pure _
    · refine ih.bind fun more => ?_
      split <;> exact .pure _

theorem search_from_looks (steady : host.Steady) (onlyDirectories : Bool) (fuel : Nat)
    (components : List Component) (path : String) :
    Looks (searchFrom host onlyDirectories fuel components path) := by
  induction fuel generalizing components path with
  | zero => exact .pure _
  | succ fuel ih =>
    cases components with
    | nil => exact .pure _
    | cons component rest =>
      have accepted (found : String) : Looks (do
          if onlyDirectories then
            pure (.ok (if ← host.isDirectory found then [found] else []))
          else pure (.ok [found]) : StateM σ (Except Unlisted (List String))) := by
        split
        · exact (steady.isDirectory found).bind fun _ => .pure _
        · exact .pure _
      have onward (found : String) : Looks (
          if rest.isEmpty then (do
            if onlyDirectories then
              pure (.ok (if ← host.isDirectory found then [found] else []))
            else pure (.ok [found]))
          else searchFrom host onlyDirectories fuel rest found) := by
        split
        · exact accepted found
        · exact ih rest found
      rw [searchFrom]
      extract_lets beyond specials
      clear_value beyond specials
      split
      · -- the component is a name
        extract_lets next special proceed
        have proceeds (there : Bool) : Looks (proceed there) := by
          dsimp only [proceed]
          split
          · exact onward next
          · exact .pure _
        split
        · exact (steady.isDirectory path).bind proceeds
        · exact (steady.isThere next).bind proceeds
      · refine (steady.isDirectory path).bind fun isDirectory => ?_
        split
        · exact .pure _
        refine (steady.names path).bind fun names => ?_
        split
        · exact .pure _
        split
        · -- the component stands for any number of directories
          refine gather_looks (fun name => (steady.isDirectory _).bind fun isDirectory => ?_) _
          extract_lets proceed
          have proceeds (matched : Except Unlisted (List String)) : Looks (proceed matched) := by
            dsimp only [proceed]
            split
            · exact .pure _
            · refine (ih _ _).bind fun below => ?_
              split <;> exact .pure _
          split
          · exact (Looks.pure _).bind proceeds
          · split
            · split
              · exact (accepted _).bind proceeds
              · exact (ih _ _).bind proceeds
            · exact (Looks.pure _).bind proceeds
        · -- the component is compared with names
          refine (gather_looks (fun name => onward _) _).bind fun special => ?_
          split
          · exact .pure _
          refine (gather_looks (fun name => onward _) _).bind fun found => ?_
          split <;> exact .pure _

/-- Searching for the paths of a pattern changes nothing. -/
theorem search_looks (steady : host.Steady) (pattern : Pattern) : Looks (search host pattern) :=
  search_from_looks steady _ _ _ _

/-- The file system in memory is steady. -/
theorem Tree.host_steady : Tree.host.Steady where
  read _ _ := rfl
  isThere _ _ := rfl
  isDirectory _ _ := rfl
  names _ _ := rfl
  drained_left _ := rfl
  drained_view _ := rfl

end Readings.Files
