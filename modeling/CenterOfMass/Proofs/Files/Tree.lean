import CenterOfMass.Files.Tree
import CenterOfMass.Proofs.Files.Path
import CenterOfMass.Proofs.Outcome

namespace CenterOfMass

/-- What there is at a place, without what lies further in. -/
inductive FileView
  | file (bytes : List UInt8)
  | directory
  deriving DecidableEq

namespace FileNode

def view : FileNode → FileView
  | .file bytes => .file bytes
  | .directory _ => .directory

def look (node : FileNode) (place : Location) : Option FileView := (node.at? place).map view

theorem at?_append (node : FileNode) (place further : Location) :
    node.at? (place ++ further) = (node.at? place).bind (·.at? further) := by
  induction place generalizing node with
  | nil => rfl
  | cons name place ih =>
    show (node.entry? name).bind _ = ((node.entry? name).bind _).bind _
    cases node.entry? name with
    | none => rfl
    | some held => exact ih held

theorem eq_directory_of_view {node : FileNode} (h : node.view = .directory) :
    ∃ entries, node = .directory entries := by
  cases node with
  | file => cases h
  | directory entries => exact ⟨entries, rfl⟩

/-- Only a directory has something further in. -/
theorem exists_entries_of_at? {node found : FileNode} {name : String} {place : Location}
    (h : node.at? (name :: place) = some found) : ∃ entries, node = .directory entries := by
  cases node with
  | file => cases h
  | directory entries => exact ⟨entries, rfl⟩

theorem look_cons (entries : List (String × FileNode)) (name : String) (place : Location) :
    (directory entries).look (name :: place) = (entries.lookup name).bind (·.look place) := by
  show ((entries.lookup name).bind (·.at? place)).map view = _
  cases entries.lookup name <;> rfl

/-- A node with nothing further in. -/
def IsLeaf : FileNode → Prop
  | .file _ => True
  | .directory entries => entries = []

theorem IsLeaf.look_cons {leaf : FileNode} (h : leaf.IsLeaf) (name : String) (place : Location) :
    leaf.look (name :: place) = none := by
  cases leaf with
  | file => rfl
  | directory entries =>
    obtain rfl : entries = [] := h
    rfl

theorem look_putEntry (name other : String) (node : FileNode) (entries : List (String × FileNode))
    (place : Location) : (directory (putEntry name node entries)).look (other :: place) =
      if other = name then node.look place else (directory entries).look (other :: place) := by
  rw [look_cons, look_cons, lookup_putEntry]
  split <;> rfl

/-- Nothing lies further in than what is no directory. -/
theorem look_eq_none {entries : List (String × FileNode)} {first : String}
    (h : (directory entries).look [first] ≠ some .directory) (second : String)
    (further : Location) : (directory entries).look (first :: second :: further) = none := by
  rw [look_cons] at h ⊢
  cases hnode : entries.lookup first with
  | none => rfl
  | some node =>
    rw [hnode] at h
    cases node with
    | file => rfl
    | directory => exact absurd rfl h

theorem look_putEntry_leaf {leaf : FileNode} {entries : List (String × FileNode)} {name : String}
    (hleaf : leaf.IsLeaf) (hfree : (directory entries).look [name] ≠ some .directory)
    (place : Location) : (directory (putEntry name leaf entries)).look place =
      if place = [name] then some leaf.view else (directory entries).look place := by
  cases place with
  | nil => rfl
  | cons first further =>
    rw [look_putEntry]
    by_cases hfirst : first = name
    · subst hfirst
      rw [if_pos rfl]
      cases further with
      | nil =>
        rw [if_pos rfl]
        rfl
      | cons second further =>
        rw [hleaf.look_cons, look_eq_none hfree, if_neg (by simp)]
    · rw [if_neg hfirst, if_neg (by simp [hfirst])]

/-- A leaf put into a directory in the place of nothing or of a file is all that changes. -/
theorem look_put {root leaf : FileNode} {outer : Location} {entries : List (String × FileNode)}
    {name : String} (hleaf : leaf.IsLeaf) (houter : root.at? outer = some (.directory entries))
    (hfree : root.look (outer ++ [name]) ≠ some .directory) (place : Location) :
    (root.put (outer ++ [name]) leaf).look place =
      if place = outer ++ [name] then some leaf.view else root.look place := by
  -- Over the way to the directory, from the root inwards.
  induction outer generalizing root place with
  | nil =>
    obtain rfl : root = .directory entries := Option.some.inj houter
    exact look_putEntry_leaf hleaf hfree place
  | cons next outer ih =>
    obtain ⟨held, rfl⟩ := exists_entries_of_at? houter
    obtain ⟨node, hnode, hinner⟩ := Option.bind_eq_some_iff.mp houter
    have hnext : held.lookup next = some node := hnode
    have hput : (directory held).put (next :: outer ++ [name]) leaf =
        directory (putEntry next (node.put (outer ++ [name]) leaf) held) := by
      show directory (putEntry next (((held.lookup next).getD _).put _ leaf) held) = _
      rw [hnext]
      rfl
    have hlook : ∀ further, (directory held).look (next :: further) = node.look further := by
      intro further
      rw [look_cons, hnext]
      rfl
    have hfurther := ih hinner (hlook (outer ++ [name]) ▸ hfree)
    rw [hput]
    cases place with
    | nil => rfl
    | cons first further =>
      rw [look_putEntry]
      by_cases hfirst : first = next
      · subst hfirst
        rw [if_pos rfl, hfurther, hlook]
        simp
      · rw [if_neg hfirst, if_neg (by simp [hfirst])]

end FileNode

namespace FileTree

variable {t t' : FileTree} {r s : Reached} {name path : String} {names : List String}

def look (t : FileTree) (place : Location) : Option FileView := t.root.look place

/-- What has been reached is what lies at its place. -/
def Holds (t : FileTree) (r : Reached) : Prop := t.root.at? r.place.reverse = some r.node

/-- The place that a name leads to. Places stand in reverse here. -/
def stepFrom (place : Location) (name : String) : Location :=
  if name = "." then place else if name = ".." then place.tail else name :: place

/-- The place that a path stands for. There are no links, so that it does not depend on what lies
there. -/
def locate (t : FileTree) (path : String) : Location :=
  let start := if path.startsWith "/" then [] else t.workingDirectory.foldl stepFrom []
  ((pathSteps path).foldl stepFrom start).reverse

section Reach

theorem holds_root (t : FileTree) : t.Holds ⟨[], t.root⟩ := rfl

/-- What a step of a path does, when it can be taken. -/
theorem enter_eq_ok (hr : t.Holds r) (h : t.enter r name = .ok s) :
    t.Holds s ∧ s.place = stepFrom r.place name := by
  unfold enter at h
  unfold stepFrom
  cases hnode : r.node with
  | file => simp only [hnode] at h; cases h
  | directory entries =>
    simp only [hnode] at h
    by_cases hhere : name = "."
    · rw [if_pos hhere] at h ⊢
      obtain rfl := Except.ok.inj h
      exact ⟨hr, rfl⟩
    rw [if_neg hhere] at h ⊢
    by_cases habove : name = ".."
    · rw [if_pos habove] at h ⊢
      obtain rfl := Except.ok.inj h
      refine ⟨?_, rfl⟩
      unfold Holds at hr ⊢
      cases hplace : r.place with
      | nil => rfl
      | cons last outer =>
        rw [hplace, List.reverse_cons, FileNode.at?_append] at hr
        obtain ⟨node, hnode, -⟩ := Option.bind_eq_some_iff.mp hr
        show t.root.at? outer.reverse = some ((t.root.at? outer.reverse).getD _)
        rw [hnode]
        rfl
    rw [if_neg habove] at h ⊢
    by_cases hlong : longestName < name.utf8ByteSize
    · rw [if_pos hlong] at h
      cases h
    rw [if_neg hlong] at h
    cases hheld : entries.lookup name with
    | none => rw [hheld] at h; cases h
    | some node =>
      rw [hheld] at h
      obtain rfl := Except.ok.inj h
      refine ⟨?_, rfl⟩
      unfold Holds at hr ⊢
      rw [List.reverse_cons, FileNode.at?_append, hr, hnode]
      show (entries.lookup name).bind _ = _
      rw [hheld]
      rfl

/-- A name that is missing is one that a directory does not have. -/
theorem enter_eq_missing (h : t.enter r name = .error .missing) :
    ∃ entries, r.node = .directory entries ∧ entries.lookup name = none := by
  unfold enter at h
  cases hnode : r.node with
  | file => simp only [hnode] at h; cases h
  | directory entries =>
    simp only [hnode] at h
    refine ⟨entries, rfl, ?_⟩
    split at h
    · cases h
    split at h
    · cases h
    split at h
    · cases h
    split at h
    · cases h
    · assumption

/-- The name of an entry leads to that entry. -/
theorem enter_entry (hname : IsEntryName name) (h : t.enter r name = .ok s) :
    ∃ entries, r.node = .directory entries ∧ s.place = name :: r.place ∧
      entries.lookup name = some s.node := by
  unfold enter at h
  cases hnode : r.node with
  | file => simp only [hnode] at h; cases h
  | directory entries =>
    simp only [hnode] at h
    rw [if_neg hname.ne_here, if_neg hname.ne_above] at h
    split at h
    · cases h
    split at h
    · obtain rfl := Except.ok.inj h
      exact ⟨entries, rfl, rfl, by assumption⟩
    · cases h

theorem follow_eq_ok (hr : t.Holds r) (h : t.follow r names = .ok s) :
    t.Holds s ∧ s.place = names.foldl stepFrom r.place := by
  induction names generalizing r with
  | nil =>
    obtain rfl := Except.ok.inj h
    exact ⟨hr, rfl⟩
  | cons name names ih =>
    obtain ⟨next, hnext, h⟩ := bind_eq_ok_iff.mp h
    obtain ⟨hholds, hplace⟩ := enter_eq_ok hr hnext
    obtain ⟨hs, hend⟩ := ih hholds h
    exact ⟨hs, by rw [hend, hplace, List.foldl_cons]⟩

theorem reach_eq_ok (h : t.reach path names = .ok s) :
    t.Holds s ∧ s.place = names.foldl stepFrom
      (if path.startsWith "/" then [] else t.workingDirectory.foldl stepFrom []) := by
  unfold reach at h
  by_cases hroot : path.startsWith "/"
  · rw [if_pos hroot] at h ⊢
    exact follow_eq_ok t.holds_root h
  · rw [if_neg hroot] at h ⊢
    obtain ⟨start, hstart, h⟩ := bind_eq_ok_iff.mp h
    obtain ⟨hholds, hplace⟩ := follow_eq_ok t.holds_root hstart
    rw [← hplace]
    exact follow_eq_ok hholds h

end Reach

section Change

variable {place : Location} {found : Option FileNode} {bytes : List UInt8}

/-- A slot that is still free is one in a directory. -/
theorem slot_eq_none (h : t.slot path = .ok (place, none)) :
    ∃ r entries name, t.Holds r ∧ r.node = .directory entries ∧
      place = r.place.reverse ++ [name] ∧ entries.lookup name = none := by
  unfold slot at h
  obtain ⟨steps, -, h⟩ := bind_eq_ok_iff.mp h
  obtain ⟨r, hreach, h⟩ := bind_eq_ok_iff.mp h
  obtain ⟨hholds, -⟩ := reach_eq_ok hreach
  split at h
  · cases h
  · rename_i name _
    split at h
    · cases h
    · rename_i hmissing
      obtain ⟨entries, hnode, hlookup⟩ := enter_eq_missing hmissing
      obtain ⟨rfl, -⟩ := Prod.mk.inj (Except.ok.inj h)
      exact ⟨r, entries, name, hholds, hnode, List.reverse_cons, hlookup⟩
    · cases h

theorem stepsOf_eq_ok {steps : List String} (h : stepsOf path = .ok steps) :
    steps = pathSteps path := by
  unfold stepsOf at h
  split at h
  · cases h
  split at h
  · cases h
  split at h
  · cases h
  exact (Except.ok.inj h).symm

/-- The slot for the name of an entry is in the directory that the path before it leads to. -/
theorem slot_eq_ok (hname : IsEntryName name) (hsteps : pathSteps path = names ++ [name])
    (h : t.slot path = .ok (place, found)) :
    ∃ r entries, t.reach path names = .ok r ∧ r.node = .directory entries ∧
      place = r.place.reverse ++ [name] ∧ found = entries.lookup name := by
  unfold slot at h
  obtain ⟨steps, hsteps', h⟩ := bind_eq_ok_iff.mp h
  obtain rfl := stepsOf_eq_ok hsteps'
  rw [hsteps, List.dropLast_concat, List.getLast?_concat] at h
  obtain ⟨r, hreach, h⟩ := bind_eq_ok_iff.mp h
  simp only at h
  split at h
  · rename_i s henter
    obtain ⟨entries, hnode, hplace, hlookup⟩ := enter_entry hname henter
    obtain ⟨rfl, rfl⟩ := Prod.mk.inj (Except.ok.inj h)
    exact ⟨r, entries, hreach, hnode, by rw [hplace, List.reverse_cons], hlookup.symm⟩
  · rename_i hmissing
    obtain ⟨entries, hnode, hlookup⟩ := enter_eq_missing hmissing
    obtain ⟨rfl, rfl⟩ := Prod.mk.inj (Except.ok.inj h)
    exact ⟨r, entries, hreach, hnode, List.reverse_cons, hlookup.symm⟩
  · cases h

theorem at?_entry {entries : List (String × FileNode)} (hr : t.Holds r)
    (hnode : r.node = .directory entries) (name : String) :
    t.root.at? (r.place.reverse ++ [name]) = entries.lookup name := by
  rw [FileNode.at?_append, hr, hnode]
  show (entries.lookup name).bind some = _
  exact Option.bind_fun_some _

/-- What is put under a name of a directory changes nothing else, unless there was a directory. -/
theorem look_put {leaf : FileNode} {entries : List (String × FileNode)} (hleaf : leaf.IsLeaf)
    (hr : t.Holds r) (hnode : r.node = .directory entries)
    (hfree : ∀ within, entries.lookup name ≠ some (.directory within)) (place : Location) :
    (t.root.put (r.place.reverse ++ [name]) leaf).look place =
      if place = r.place.reverse ++ [name] then some leaf.view else t.look place := by
  have houter : t.root.at? r.place.reverse = some (.directory entries) := hnode ▸ hr
  apply FileNode.look_put hleaf houter
  intro hdirectory
  obtain ⟨node, hfound, hview⟩ := Option.map_eq_some_iff.mp hdirectory
  obtain ⟨within, rfl⟩ := FileNode.eq_directory_of_view hview
  rw [at?_entry hr hnode] at hfound
  exact hfree within hfound

/-- A tree with more directories, and otherwise the same. -/
structure Grows (t t' : FileTree) : Prop where
  workingDirectory : t'.workingDirectory = t.workingDirectory
  look : ∀ place, t'.look place = t.look place ∨
    t.look place = none ∧ t'.look place = some .directory

theorem Grows.refl (t : FileTree) : t.Grows t := ⟨rfl, fun _ => .inl rfl⟩

theorem Grows.trans {t'' : FileTree} (h : t.Grows t') (h' : t'.Grows t'') : t.Grows t'' := by
  refine ⟨h'.workingDirectory.trans h.workingDirectory, fun place => ?_⟩
  rcases h.look place with heq | ⟨hnone, hnew⟩
  · rw [← heq]
    exact h'.look place
  · rcases h'.look place with heq' | ⟨hnone', -⟩
    · exact .inr ⟨hnone, heq'.trans hnew⟩
    · rw [hnew] at hnone'
      cases hnone'

theorem grows_makeDirectory (h : t.makeDirectory path = .ok t') : t.Grows t' := by
  unfold makeDirectory at h
  obtain ⟨⟨place, found⟩, hslot, h⟩ := bind_eq_ok_iff.mp h
  cases found with
  | some => cases h
  | none =>
    obtain ⟨r, entries, name, hholds, hnode, rfl, hlookup⟩ := slot_eq_none hslot
    have hfree : ∀ within, entries.lookup name ≠ some (.directory within) := by
      intro within
      rw [hlookup]
      exact nofun
    have hleaf : (FileNode.directory []).IsLeaf := rfl
    have hlook := look_put hleaf hholds hnode hfree
    obtain rfl := Except.ok.inj h
    refine ⟨rfl, fun place => ?_⟩
    by_cases hplace : place = r.place.reverse ++ [name]
    · refine .inr ⟨?_, (hlook place).trans (if_pos hplace)⟩
      show (t.root.at? place).map FileNode.view = none
      rw [hplace, at?_entry hholds hnode, hlookup]
      rfl
    · exact .inl ((hlook place).trans (if_neg hplace))

/-- A file that is written into a directory is in it, and nothing else has changed. -/
theorem writeFile_eq_ok {directory : String} (hname : IsEntryName name)
    (hdirectory : directory ≠ "") (h : t.writeFile (joinPath directory name) bytes = .ok t') :
    t'.workingDirectory = t.workingDirectory ∧ t.look (t.locate directory) = some .directory ∧
      ∀ place, t'.look place =
        if place = t.locate directory ++ [name] then some (.file bytes) else t.look place := by
  unfold writeFile at h
  obtain ⟨⟨place, found⟩, hslot, h⟩ := bind_eq_ok_iff.mp h
  have hsteps := hname.pathSteps_joinPath hdirectory
  obtain ⟨r, entries, hreach, hnode, rfl, rfl⟩ := slot_eq_ok hname hsteps hslot
  obtain ⟨hholds, hplace⟩ := reach_eq_ok hreach
  have hlocate : t.locate directory = r.place.reverse := by
    rw [hplace, hname.startsWith_joinPath hdirectory]
    rfl
  have hlook : t.look r.place.reverse = some .directory := by
    show (t.root.at? r.place.reverse).map FileNode.view = _
    rw [hholds, hnode]
    rfl
  have hfree : ∀ within, entries.lookup name ≠ some (.directory within) := by
    intro within heq
    rw [heq] at h
    cases h
  rw [hlocate]
  have hput : t' = { t with root := t.root.put (r.place.reverse ++ [name]) (.file bytes) } := by
    split at h
    · cases h
    · split at h
      · cases h
      · rename_i heq _
        obtain ⟨rfl, -⟩ := Prod.mk.inj heq
        exact (Except.ok.inj h).symm
  obtain rfl := hput
  exact ⟨rfl, hlook, look_put trivial hholds hnode hfree⟩

end Change

section System

variable {α β : Type}

theorem update_eq (change : FileTree → Except FileFault FileTree) (t : FileTree) :
    (update change).run t = match change t with
      | .ok t' => (.ok (), t')
      | .error fault => (.error fault, t) := by
  show (match change t with | .ok _ => _ | .error _ => _ : StateM FileTree _) t = _
  cases change t <;> rfl

/-- A program that does no more to the files than make directories. -/
def Growing (x : StateM FileTree α) : Prop := ∀ t : FileTree, t.Grows (x.run t).2

theorem Growing.pure (a : α) : Growing (Pure.pure a : StateM FileTree α) := Grows.refl

theorem Growing.bind {x : StateM FileTree α} {f : α → StateM FileTree β} (hx : Growing x)
    (hf : ∀ a, Growing (f a)) : Growing (x >>= f) := fun t => (hx t).trans (hf _ _)

theorem growing_makeDirectory (path : String) : Growing (system.makeDirectory path) := by
  intro t
  show t.Grows ((update (·.makeDirectory path)).run t).2
  rw [update_eq]
  cases hmade : t.makeDirectory path with
  | ok t' => exact grows_makeDirectory hmade
  | error => exact Grows.refl t

theorem growing_isDirectory (path : String) : Growing (system.isDirectory path) := Grows.refl

theorem growing_provide (path : String) : Growing (system.provide path) := by
  unfold FileSystem.provide
  apply (growing_makeDirectory path).bind
  intro made
  split
  · exact (growing_isDirectory path).bind fun _ => .pure _
  · exact .pure _

theorem growing_provideFirst (paths : List String) : Growing (system.provideFirst paths) := by
  induction paths with
  | nil => exact .pure _
  | cons path outer ih =>
    unfold FileSystem.provideFirst
    apply (growing_provide path).bind
    intro made
    split
    · apply ih.bind
      intro others
      split
      · exact growing_provide path
      · exact .pure _
    · exact .pure _

/-- Directories are all that is made on the way to a directory. -/
theorem growing_makeDirectories (path : String) : Growing (system.makeDirectories path) :=
  growing_provideFirst (withAncestors path)

end System

end FileTree

end CenterOfMass
