import Admc.Interface.Gpo
import Mathlib.Data.List.Perm.Basic
import Mathlib.Logic.Relation

/-!
# The walk of a GPT

What `gpo_get_gpt_contents` finds on a share that has a tree of folders below the root of the GPT.
The loop takes folders from a stack and puts those in them onto it; the paths that it has seen are
in another list. What is in the folders on the stack is all that it has not seen (`Walking.perm`),
whatever the tree is like, and in whatever order folders are listed.

* `exploreFrom_spec`: the loop ends, and gives all paths if nothing has failed;
* `gptContents`: each path of the tree once, with each folder before what is in it, or an error;
  deleting goes through them backwards, and setting their security descriptors forwards.
-/

namespace Admc

/-! ## Trees -/

/-- What a folder of the share holds: a file, or a folder of its own. -/
inductive GptEntry
  | file (name : String)
  | folder (name : String) (entries : List GptEntry)

namespace GptEntry

/-- The name in the folder. -/
def name : GptEntry → String
  | file name => name
  | folder name _ => name

def isFolder : GptEntry → Bool
  | file _ => false
  | folder _ _ => true

end GptEntry

/-- `path + "/" + child_name`. -/
def childPath (path childName : String) : String := path ++ "/" ++ childName

mutual

/-- The paths of what is in a folder and of all that is in it. -/
def GptEntry.paths (path : String) : GptEntry → List String
  | .file name => [childPath path name]
  | .folder name entries => childPath path name :: pathsIn (childPath path name) entries

/-- The paths of all that is in a folder, at whatever depth. -/
def pathsIn (path : String) : List GptEntry → List String
  | [] => []
  | e :: entries => e.paths path ++ pathsIn path entries

end

/-- Names of files and folders. -/
def IsEntryName (name : String) : Prop := '/' ∉ name.toList ∧ name ≠ "." ∧ name ≠ ".."

mutual

/-- Names have no slashes, and those in one folder are different. -/
def GptEntry.WellFormed : GptEntry → Prop
  | .file name => IsEntryName name
  | .folder name entries => IsEntryName name ∧ AllWellFormed entries

/-- The entries of a folder are well formed. -/
def AllWellFormed : List GptEntry → Prop
  | [] => True
  | e :: entries => e.WellFormed ∧ e.name ∉ entries.map GptEntry.name ∧ AllWellFormed entries

end

/-- A folder of the tree below a root, with what it holds. -/
inductive FolderAt (root : String) (tree : List GptEntry) : String → List GptEntry → Prop
  | root : FolderAt root tree root tree
  | inside {path name : String} {entries entries' : List GptEntry} :
      FolderAt root tree path entries → .folder name entries' ∈ entries →
        FolderAt root tree (childPath path name) entries'

/-! ## Shares -/

section
variable {τ : Type} (smb : Smb τ)

/-- A call of `smbc_stat`. -/
def StatStep (t t' : τ) : Prop := ∃ path answer, smb.stat t path = (t', answer)

/-- The folder has been listed without an error: `errno` is not set after the calls for what was
    listed. -/
def ListsAs (path : String) (names : List String) : Prop :=
  ∃ t t₁ t₂, smb.openDir t path = (t₁, some names) ∧ Relation.ReflTransGen (StatStep smb) t₁ t₂ ∧
    smb.errnoIsSet t₂ = false

/-- Names that are gone through. -/
def isListed (name : String) : Bool := name ≠ "." ∧ name ≠ ".."

/-- The share has the tree below the root: a list of names without an error is complete, in any
    order, and the answers to `smbc_stat` are right. Any call may fail. -/
structure Serves (root : String) (tree : List GptEntry) : Prop where
  listed : ∀ path entries, FolderAt root tree path entries → ∀ names, ListsAs smb path names →
    (names.filter isListed).Perm (entries.map GptEntry.name)
  stat : ∀ path entries, FolderAt root tree path entries → ∀ e ∈ entries, ∀ t t' isDir,
    smb.stat t (childPath path e.name) = (t', some isDir) → isDir = e.isFolder

/-- No call for a path of the tree fails. -/
structure NeverFails (root : String) (tree : List GptEntry) : Prop where
  openDir : ∀ path entries, FolderAt root tree path entries → ∀ t, (smb.openDir t path).2 ≠ none
  errno : ∀ path entries, FolderAt root tree path entries → ∀ t t₁ names t₂,
    smb.openDir t path = (t₁, some names) → Relation.ReflTransGen (StatStep smb) t₁ t₂ →
      smb.errnoIsSet t₂ = false
  stat : ∀ path entries, FolderAt root tree path entries → ∀ e ∈ entries, ∀ t,
    (smb.stat t (childPath path e.name)).2 ≠ none

end

/-! ## One folder -/

/-- The folders in a folder, with their paths. -/
def foldersOf (path : String) (entries : List GptEntry) : List (String × List GptEntry) :=
  entries.filterMap fun
    | .file _ => none
    | .folder name entries => some (childPath path name, entries)

section
variable {τ : Type} {smb : Smb τ} {t t' : τ} {path : String} {names : List String}
  {entries : List GptEntry} {exploreStack seenStack exploreStack' seenStack' : List String}

/-- The inner loop makes calls of `smbc_stat` only. -/
theorem statSteps_exploreNames {result : Option (List String × List String)}
    (h : exploreNames smb path t names exploreStack seenStack = (t', result)) :
    Relation.ReflTransGen (StatStep smb) t t' := by
  induction names generalizing t exploreStack seenStack with
  | nil => exact (Prod.mk.inj h).1 ▸ .refl
  | cons childName names ih =>
    rw [exploreNames] at h
    split_ifs at h with hdot
    · exact ih h
    · dsimp only at h
      split at h
      · next hstat => exact (Prod.mk.inj h).1 ▸ .single ⟨_, _, hstat⟩
      · next hstat => exact .head ⟨_, _, hstat⟩ (ih h)

/-- What the inner loop adds, if the answers are right for the entries in the order in which they
    are listed. -/
theorem exploreNames_eq (hnames : names.filter isListed = entries.map GptEntry.name)
    (hstat : ∀ e ∈ entries, ∀ t t' isDir,
      smb.stat t (childPath path e.name) = (t', some isDir) → isDir = e.isFolder)
    (h : exploreNames smb path t names exploreStack seenStack =
      (t', some (exploreStack', seenStack'))) :
    exploreStack' = ((foldersOf path entries).map Prod.fst).reverse ++ exploreStack ∧
      seenStack' = seenStack ++ entries.map fun e => childPath path e.name := by
  induction names generalizing t exploreStack seenStack entries with
  | nil =>
    obtain rfl : entries = [] := List.map_eq_nil_iff.1 hnames.symm
    obtain ⟨rfl, rfl⟩ := Prod.mk.inj (Option.some.inj (Prod.mk.inj h).2)
    exact ⟨rfl, (List.append_nil _).symm⟩
  | cons childName names ih =>
    rw [exploreNames] at h
    split_ifs at h with hdot
    · have hnot : isListed childName = false := by
        rw [isListed, decide_eq_false_iff_not]
        tauto
      rw [List.filter_cons_of_neg (by rw [hnot]; exact Bool.false_ne_true)] at hnames
      exact ih hnames hstat h
    · have hlisted : isListed childName = true := by
        rw [isListed, decide_eq_true_iff]
        tauto
      rw [List.filter_cons_of_pos hlisted] at hnames
      obtain ⟨e, entries, rfl, rfl, hrest⟩ := List.map_eq_cons_iff.1 hnames.symm
      rw [List.forall_mem_cons] at hstat
      dsimp only at h
      split at h
      · cases (Prod.mk.inj h).2
      · next hisDir =>
        obtain rfl := hstat.1 _ _ _ hisDir
        obtain ⟨rfl, rfl⟩ := ih hrest.symm hstat.2 h
        rw [List.map_cons, List.append_assoc]
        refine ⟨?_, rfl⟩
        cases e with
        | file name => rfl
        | folder name entries' =>
          have hfolders : foldersOf path (.folder name entries' :: entries) =
              (childPath path name, entries') :: foldersOf path entries := rfl
          rw [hfolders, List.map_cons, List.reverse_cons, List.append_assoc]
          rfl

/-- Nothing fails in the inner loop if no call of `smbc_stat` for its names does. -/
theorem exploreNames_ne_none
    (hstat : ∀ childName ∈ names, isListed childName = true →
      ∀ t, (smb.stat t (childPath path childName)).2 ≠ none) :
    (exploreNames smb path t names exploreStack seenStack).2 ≠ none := by
  induction names generalizing t exploreStack seenStack with
  | nil => exact Option.some_ne_none _
  | cons childName names ih =>
    rw [List.forall_mem_cons] at hstat
    rw [exploreNames]
    split_ifs with hdot
    · exact ih hstat.2
    · have hlisted : isListed childName = true := by
        rw [isListed, decide_eq_true_iff]
        tauto
      have hchild := hstat.1 hlisted t
      dsimp only
      split
      · next hnone => exact absurd (congrArg Prod.snd hnone) hchild
      · exact ih hstat.2

end

/-! ## Paths -/

section
variable {path : String} {entries entries' : List GptEntry}

theorem pathsIn_eq : pathsIn path entries = entries.flatMap fun e => e.paths path := by
  induction entries with
  | nil => rfl
  | cons e entries ih => rw [pathsIn, List.flatMap_cons, ih]

/-- What is in a folder: the paths of the entries, and what is in the folders among them. -/
theorem pathsIn_perm : (pathsIn path entries).Perm
    ((entries.map fun e => childPath path e.name) ++
      (foldersOf path entries).flatMap fun q => pathsIn q.1 q.2) := by
  induction entries with
  | nil => exact .refl _
  | cons e entries ih =>
    cases e with
    | file name => exact ih.cons (childPath path name)
    | folder name entries' =>
      have hfolders : foldersOf path (.folder name entries' :: entries) =
          (childPath path name, entries') :: foldersOf path entries := rfl
      rw [hfolders, List.flatMap_cons, List.map_cons, pathsIn, GptEntry.paths, List.cons_append,
        List.cons_append]
      refine List.Perm.cons _ ?_
      refine (ih.append_left _).trans ?_
      rw [← List.append_assoc, ← List.append_assoc]
      exact List.perm_append_comm.append_right _

theorem pathsIn_congr (h : entries.Perm entries') :
    (pathsIn path entries).Perm (pathsIn path entries') := by
  rw [pathsIn_eq, pathsIn_eq]
  exact h.flatMap_right _

/-- A path is below another. -/
def IsInside (path parentPath : String) : Prop := ∃ rest, path = childPath parentPath rest

theorem isInside_childPath (path name : String) : IsInside (childPath path name) path :=
  ⟨name, rfl⟩

theorem childPath_childPath (path a b : String) :
    childPath (childPath path a) b = childPath path (childPath a b) := by
  simp only [childPath, String.append_assoc]

theorem toList_childPath (path name : String) :
    (childPath path name).toList = path.toList ++ '/' :: name.toList := by
  rw [childPath, String.toList_append, String.toList_append, List.append_assoc]
  rfl

theorem IsInside.length_lt {path parentPath : String} (h : IsInside path parentPath) :
    parentPath.toList.length < path.toList.length := by
  obtain ⟨rest, rfl⟩ := h
  rw [toList_childPath, List.length_append, List.length_cons]
  omega

theorem IsInside.trans {path path' path'' : String} (h : IsInside path path')
    (h' : IsInside path' path'') : IsInside path path'' := by
  obtain ⟨rest, rfl⟩ := h
  obtain ⟨rest', rfl⟩ := h'
  exact ⟨childPath rest' rest, childPath_childPath _ _ _⟩

/-- What is below a path and has a parent is below the parent, or the other way round. -/
theorem IsInside.parent {path parentPath name : String} (hname : '/' ∉ name.toList)
    (h : IsInside (childPath parentPath name) path) :
    parentPath = path ∨ IsInside parentPath path := by
  obtain ⟨rest, h⟩ := h
  have h := congrArg String.toList h
  rw [toList_childPath, toList_childPath] at h
  rcases List.append_eq_append_iff.1 h with ⟨l, hpath, hrest⟩ | ⟨l, hparent, hrest⟩
  · cases l with
    | nil =>
      rw [List.append_nil] at hpath
      exact .inl (String.toList_inj.1 hpath.symm)
    | cons c l =>
      refine absurd ?_ hname
      rw [(List.cons.inj hrest).2]
      exact List.mem_append_right _ List.mem_cons_self
  · cases l with
    | nil =>
      rw [List.append_nil] at hparent
      exact .inl (String.toList_inj.1 hparent)
    | cons c l =>
      obtain ⟨rfl, -⟩ := List.cons.inj hrest
      refine .inr ⟨.ofList l, String.toList_inj.1 ?_⟩
      rw [toList_childPath, hparent, String.toList_ofList]

mutual

/-- The paths of an entry are its own and those below it. -/
theorem mem_paths {x : String} : ∀ {e : GptEntry} {path : String}, x ∈ e.paths path →
    x = childPath path e.name ∨ IsInside x (childPath path e.name)
  | .file name, path, h => .inl (List.mem_singleton.1 h)
  | .folder name entries, path, h => by
    rw [GptEntry.paths, List.mem_cons] at h
    exact h.imp_right isInside_of_mem_pathsIn

/-- What is in a folder is below it. -/
theorem isInside_of_mem_pathsIn {x : String} : ∀ {entries : List GptEntry} {path : String},
    x ∈ pathsIn path entries → IsInside x path
  | [], path, h => absurd h List.not_mem_nil
  | e :: entries, path, h => by
    rw [pathsIn, List.mem_append] at h
    rcases h with h | h
    · rcases mem_paths h with rfl | h
      · exact isInside_childPath path e.name
      · exact h.trans (isInside_childPath path e.name)
    · exact isInside_of_mem_pathsIn h

end

theorem AllWellFormed.isEntryName {e : GptEntry} (h : AllWellFormed entries) (he : e ∈ entries) :
    IsEntryName e.name := by
  induction entries with
  | nil => exact absurd he List.not_mem_nil
  | cons e' entries ih =>
    rcases List.mem_cons.1 he with rfl | he
    · cases e with
      | file name => exact h.1
      | folder name entries' => exact h.1.1
    · exact ih h.2.2 he

theorem AllWellFormed.folder {name : String} (h : AllWellFormed entries)
    (he : .folder name entries' ∈ entries) : AllWellFormed entries' := by
  induction entries with
  | nil => exact absurd he List.not_mem_nil
  | cons e entries ih =>
    rcases List.mem_cons.1 he with rfl | he
    · exact h.1.2
    · exact ih h.2.2 he

/-- Names of one folder are told apart up to the next slash. -/
theorem eq_of_mem_paths {x : String} {e e' : GptEntry} (he : '/' ∉ e.name.toList)
    (he' : '/' ∉ e'.name.toList) (h : x ∈ e.paths path) (h' : x ∈ e'.paths path) :
    e.name = e'.name := by
  have htext : ∀ e : GptEntry, x ∈ e.paths path → ∃ tail, (tail = [] ∨ ∃ l, tail = '/' :: l) ∧
      x.toList = path.toList ++ '/' :: (e.name.toList ++ tail) := by
    intro e he
    rcases mem_paths he with rfl | ⟨rest, rfl⟩
    · exact ⟨[], .inl rfl, by rw [toList_childPath, List.append_nil]⟩
    · refine ⟨'/' :: rest.toList, .inr ⟨_, rfl⟩, ?_⟩
      rw [toList_childPath, toList_childPath, List.append_assoc]
      rfl
  have hname : ∀ name tail : List Char, '/' ∉ name → (tail = [] ∨ ∃ l, tail = '/' :: l) →
      (name ++ tail).takeWhile (· ≠ '/') = name := by
    intro name tail hslash htail
    have hall : ∀ c ∈ name, decide (c ≠ '/') = true := fun c hc =>
      decide_eq_true fun heq => hslash (heq ▸ hc)
    rw [List.takeWhile_append_of_pos hall]
    obtain rfl | ⟨l, rfl⟩ := htail
    · exact List.append_nil _
    · exact List.append_nil _
  obtain ⟨tail, htail, hx⟩ := htext e h
  obtain ⟨tail', htail', hx'⟩ := htext e' h'
  have heq := (List.cons.inj (List.append_cancel_left (hx.symm.trans hx'))).2
  rw [← String.toList_inj, ← hname _ _ he htail, heq, hname _ _ he' htail']

mutual

theorem GptEntry.nodup_paths : ∀ (e : GptEntry) (path : String), e.WellFormed →
    (e.paths path).Nodup
  | .file name, path, _ => List.nodup_singleton _
  | .folder name entries, path, h => by
    refine List.nodup_cons.2 ⟨fun hmem => ?_, nodup_pathsIn entries _ h.2⟩
    exact absurd (isInside_of_mem_pathsIn hmem).length_lt (Nat.lt_irrefl _)

/-- No path is in a folder twice. -/
theorem nodup_pathsIn : ∀ (entries : List GptEntry) (path : String), AllWellFormed entries →
    (pathsIn path entries).Nodup
  | [], path, _ => List.nodup_nil
  | e :: entries, path, h => by
    refine List.nodup_append.2
      ⟨e.nodup_paths path h.1, nodup_pathsIn entries path h.2.2, fun x hx x' hx' heq => ?_⟩
    obtain rfl := heq
    rw [pathsIn_eq, List.mem_flatMap] at hx'
    obtain ⟨e', he', hx'⟩ := hx'
    have hname := AllWellFormed.isEntryName h List.mem_cons_self
    have hname' := h.2.2.isEntryName he'
    refine h.2.1 ?_
    rw [eq_of_mem_paths hname.1 hname'.1 hx hx']
    exact List.mem_map_of_mem he'

end

end

/-! ## The walk -/

section
variable {τ : Type} {smb : Smb τ} {root path : String} {tree entries entries' : List GptEntry}

theorem FolderAt.allWellFormed (h : FolderAt root tree path entries) (htree : AllWellFormed tree) :
    AllWellFormed entries := by
  induction h with
  | root => exact htree
  | inside _ hmem ih => exact ih.folder hmem

theorem FolderAt.isInside (h : FolderAt root tree path entries) :
    path = root ∨ IsInside path root := by
  induction h with
  | root => exact .inl rfl
  | @inside path name _ _ _ _ ih =>
    rcases ih with rfl | h
    · exact .inr ⟨name, rfl⟩
    · exact .inr ((isInside_childPath path name).trans h)

/-- A folder is the root, or in one of the folders of the root. -/
theorem FolderAt.cases_head (h : FolderAt root tree path entries) :
    (path = root ∧ entries = tree) ∨ ∃ name entries', .folder name entries' ∈ tree ∧
      FolderAt (childPath root name) entries' path entries := by
  induction h with
  | root => exact .inl ⟨rfl, rfl⟩
  | @inside path name _ _ _ hmem ih =>
    rcases ih with ⟨rfl, rfl⟩ | ⟨name', entries', hmem', h'⟩
    · exact .inr ⟨name, _, hmem, .root⟩
    · exact .inr ⟨name', entries', hmem', .inside h' hmem⟩

/-- A turn of the walk: the paths that have been seen, and the folders on the stack. -/
structure Walking (smb : Smb τ) (root : String) (tree : List GptEntry) (seenStack : List String)
    (stack : List (String × List GptEntry)) : Prop where
  folder : ∀ q ∈ stack, FolderAt root tree q.1 q.2
  mem : ∀ q ∈ stack, q.1 ∈ seenStack
  perm : (seenStack ++ stack.flatMap fun q => pathsIn q.1 q.2).Perm (root :: pathsIn root tree)
  parent : ∀ path ∈ seenStack, path = root ∨
    ∃ parentPath ∈ seenStack, ∃ name, '/' ∉ name.toList ∧ path = childPath parentPath name
  sorted : seenStack.Pairwise fun path path' => ¬IsInside path path'
  listed : ∀ path entries, FolderAt root tree path entries →
    (∃ names, ListsAs smb path names) ∨ ∃ q ∈ stack, FolderAt q.1 q.2 path entries

namespace Walking

variable {seenStack : List String} {stack : List (String × List GptEntry)}

theorem start : Walking smb root tree [root] [(root, tree)] where
  folder q hq := List.mem_singleton.1 hq ▸ .root
  mem q hq := List.mem_singleton.1 hq ▸ List.mem_singleton_self root
  perm := by
    rw [List.flatMap_singleton]
    exact .refl _
  parent path h := .inl (List.mem_singleton.1 h)
  sorted := List.pairwise_singleton _ _
  listed path entries h := .inr ⟨_, List.mem_singleton_self _, h⟩

/-- Above what has been seen, all is seen but what is above the root. -/
theorem mem_of_isInside (h : Walking smb root tree seenStack stack) {parentPath : String}
    (hparent : IsInside parentPath root) (hpath : path ∈ seenStack)
    (hinside : IsInside path parentPath) : parentPath ∈ seenStack := by
  induction hn : path.toList.length using Nat.strong_induction_on generalizing path with
  | _ n ih =>
    rcases h.parent path hpath with rfl | ⟨p, hp, name, hname, rfl⟩
    · exact absurd (hinside.trans hparent).length_lt (Nat.lt_irrefl _)
    · rcases hinside.parent hname with rfl | hinside
      · exact hp
      · refine ih _ ?_ hp hinside rfl
        rw [← hn]
        exact (isInside_childPath p name).length_lt

theorem mem_foldersOf {q : String × List GptEntry} (h : q ∈ foldersOf path entries) :
    ∃ name entries', .folder name entries' ∈ entries ∧ q = (childPath path name, entries') := by
  obtain ⟨e, he, hq⟩ := List.mem_filterMap.1 h
  cases e with
  | file name => exact absurd hq nofun
  | folder name entries' => exact ⟨name, entries', he, (Option.some.inj hq).symm⟩

section
variable {q : String × List GptEntry}

/-- What is below a folder on the stack is below the root. -/
theorem isInside_root (h : Walking smb root tree seenStack (q :: stack)) (name : String) :
    IsInside (childPath q.1 name) root := by
  rcases (h.folder q List.mem_cons_self).isInside with heq | hinside
  · exact ⟨name, congrArg (childPath · name) heq⟩
  · exact (isInside_childPath q.1 name).trans hinside

/-- No path has been seen that is still to come. -/
theorem nodup (h : Walking smb root tree seenStack stack) (htree : AllWellFormed tree) :
    (seenStack ++ stack.flatMap fun q => pathsIn q.1 q.2).Nodup := by
  refine h.perm.nodup_iff.2 (List.nodup_cons.2 ⟨fun hmem => ?_, nodup_pathsIn tree root htree⟩)
  exact absurd (isInside_of_mem_pathsIn hmem).length_lt (Nat.lt_irrefl _)

/-- What is in one folder is not in each other. -/
theorem pairwise_not_isInside (hnames : ∀ e ∈ entries, IsEntryName e.name) :
    (entries.map fun e => childPath path e.name).Pairwise fun path path' =>
      ¬IsInside path path' := by
  refine List.pairwise_map.2 (List.pairwise_of_forall_mem_list fun e he e' _ hinside => ?_)
  rcases hinside.parent (hnames e he).1 with heq | hinside
  · have hlt := (isInside_childPath path e'.name).length_lt
    rw [← heq] at hlt
    exact absurd hlt (Nat.lt_irrefl _)
  · have hself := hinside.trans (isInside_childPath path e'.name)
    exact absurd hself.length_lt (Nat.lt_irrefl _)

/-- What is in a folder on the stack comes after all that has been seen. -/
theorem sorted_append (htree : AllWellFormed tree)
    (h : Walking smb root tree seenStack (q :: stack)) (hentries : entries.Perm q.2)
    (hnames : ∀ e ∈ entries, IsEntryName e.name) :
    (seenStack ++ entries.map fun e => childPath q.1 e.name).Pairwise fun path path' =>
      ¬IsInside path path' := by
  have hnew : ∀ e ∈ entries, childPath q.1 e.name ∈ pathsIn q.1 q.2 := fun e he =>
    (pathsIn_congr hentries).mem_iff.1 (pathsIn_perm.mem_iff.2
      (List.mem_append_left _ (List.mem_map_of_mem he)))
  refine List.pairwise_append.2
    ⟨h.sorted, pairwise_not_isInside hnames, fun a ha c hc hinside => ?_⟩
  obtain ⟨e, he, rfl⟩ := List.mem_map.1 hc
  -- it would have been seen already
  have hseen := h.mem_of_isInside (h.isInside_root e.name) ha hinside
  exact List.disjoint_of_nodup_append (h.nodup htree) hseen (List.mem_append_left _ (hnew e he))

/-- After a turn, for a folder that has been listed. -/
theorem step (htree : AllWellFormed tree)
    (h : Walking smb root tree seenStack (q :: stack)) (hentries : entries.Perm q.2)
    (hlists : ∃ names, ListsAs smb q.1 names) :
    Walking smb root tree (seenStack ++ entries.map fun e => childPath q.1 e.name)
      ((foldersOf q.1 entries).reverse ++ stack) := by
  have hfolder := h.folder q List.mem_cons_self
  have hnames : ∀ e ∈ entries, IsEntryName e.name := fun e he =>
    (hfolder.allWellFormed htree).isEntryName (hentries.mem_iff.1 he)
  refine ⟨fun q' hq' => ?_, fun q' hq' => ?_, ?_, fun path hpath => ?_,
    h.sorted_append htree hentries hnames, fun path entries' hpath => ?_⟩
  · rcases List.mem_append.1 hq' with hq' | hq'
    · obtain ⟨name, entries', hmem, rfl⟩ := mem_foldersOf (List.mem_reverse.1 hq')
      exact hfolder.inside (hentries.mem_iff.1 hmem)
    · exact h.folder q' (List.mem_cons_of_mem q hq')
  · rcases List.mem_append.1 hq' with hq' | hq'
    · obtain ⟨name, entries', hmem, rfl⟩ := mem_foldersOf (List.mem_reverse.1 hq')
      exact List.mem_append_right _ (List.mem_map_of_mem hmem)
    · exact List.mem_append_left _ (h.mem q' (List.mem_cons_of_mem q hq'))
  · refine .trans ?_ h.perm
    rw [List.append_assoc, List.flatMap_append, List.flatMap_cons, ← List.append_assoc _ _
      (stack.flatMap _)]
    refine (List.Perm.append_right _ ?_).append_left _
    refine ((List.reverse_perm _).flatMap_right _).append_left _ |>.trans ?_
    exact pathsIn_perm.symm.trans (pathsIn_congr hentries)
  · rcases List.mem_append.1 hpath with hpath | hpath
    · refine (h.parent path hpath).imp_right ?_
      rintro ⟨p, hp, name, hname, rfl⟩
      exact ⟨p, List.mem_append_left _ hp, name, hname, rfl⟩
    · obtain ⟨e, he, rfl⟩ := List.mem_map.1 hpath
      exact .inr ⟨q.1, List.mem_append_left _ (h.mem q List.mem_cons_self), e.name,
        (hnames e he).1, rfl⟩
  · rcases h.listed path entries' hpath with hlisted | ⟨q', hq', hpath⟩
    · exact .inl hlisted
    · rcases List.mem_cons.1 hq' with rfl | hq'
      · rcases hpath.cases_head with ⟨rfl, -⟩ | ⟨name, entries'', hmem, hpath⟩
        · exact .inl hlists
        · refine .inr ⟨(childPath q'.1 name, entries''), List.mem_append_left _ ?_, hpath⟩
          exact List.mem_reverse.2 (List.mem_filterMap.2 ⟨_, hentries.mem_iff.2 hmem, rfl⟩)
      · exact .inr ⟨q', List.mem_append_right _ hq', hpath⟩

end

end Walking

theorem length_foldersOf_le : (foldersOf path entries).length ≤ entries.length :=
  List.length_filterMap_le _ _

/-- The turns that are left after one: one for each folder on the stack, and for each path in
    them. -/
theorem turns_step {q : String × List GptEntry} {stack : List (String × List GptEntry)} {fuel : ℕ}
    (hentries : entries.Perm q.2)
    (h : (q :: stack).length + ((q :: stack).flatMap fun q => pathsIn q.1 q.2).length ≤ fuel + 1) :
    ((foldersOf q.1 entries).reverse ++ stack).length +
      (((foldersOf q.1 entries).reverse ++ stack).flatMap fun q => pathsIn q.1 q.2).length ≤
        fuel := by
  have hpaths := (@pathsIn_perm q.1 entries).symm.trans (pathsIn_congr hentries)
  have hlength := hpaths.length_eq
  have hle := @length_foldersOf_le q.1 entries
  have hreverse := ((List.reverse_perm (foldersOf q.1 entries)).flatMap_right
    fun q => pathsIn q.1 q.2).length_eq
  rw [List.length_append, List.length_map] at hlength
  rw [List.length_cons, List.flatMap_cons, List.length_append] at h
  rw [List.length_append, List.length_reverse, List.flatMap_append, List.length_append, hreverse]
  omega

theorem exploreFrom_nil {fuel : ℕ} {t : τ} {seenStack : List String} :
    exploreFrom smb fuel t [] seenStack = some (t, some seenStack) := by
  cases fuel <;> rfl

/-- The loop ends if it has a turn for each folder on the stack and for each path in them. It gives
    all paths or an error, and an error only if a call fails. -/
theorem exploreFrom_spec (htree : AllWellFormed tree) (hserves : Serves smb root tree) {fuel : ℕ}
    {t : τ} {seenStack : List String} {stack : List (String × List GptEntry)}
    (h : Walking smb root tree seenStack stack)
    (hfuel : stack.length + (stack.flatMap fun q => pathsIn q.1 q.2).length ≤ fuel) :
    ∃ t' result, exploreFrom smb fuel t (stack.map Prod.fst) seenStack = some (t', result) ∧
      (∀ pathList, result = some pathList → Walking smb root tree pathList []) ∧
      (NeverFails smb root tree → result ≠ none) := by
  induction fuel generalizing t seenStack stack with
  | zero =>
    obtain rfl : stack = [] := List.length_eq_zero_iff.1 (by omega)
    refine ⟨t, _, exploreFrom_nil, fun pathList hlist => ?_, fun _ => Option.some_ne_none _⟩
    exact Option.some.inj hlist ▸ h
  | succ fuel ih =>
    cases stack with
    | nil =>
      refine ⟨t, _, exploreFrom_nil, fun pathList hlist => ?_, fun _ => Option.some_ne_none _⟩
      exact Option.some.inj hlist ▸ h
    | cons q stack =>
      have hfolder := h.folder q List.mem_cons_self
      rw [List.map_cons, exploreFrom]
      rcases hopen : smb.openDir t q.1 with ⟨t₁, - | names⟩
      · refine ⟨t₁, none, rfl, by simp, fun hnever => ?_⟩
        exact absurd (congrArg Prod.snd hopen) (hnever.openDir _ _ hfolder t)
      · dsimp only
        rcases hexplore : exploreNames smb q.1 t₁ names (stack.map Prod.fst) seenStack with
          ⟨t₂, - | ⟨exploreStack, seenStack'⟩⟩
        · refine ⟨t₂, none, rfl, by simp, fun hnever => ?_⟩
          have hperm := hserves.listed _ _ hfolder names
            ⟨t, t₁, t₁, hopen, .refl, hnever.errno _ _ hfolder t t₁ names t₁ hopen .refl⟩
          refine absurd (congrArg Prod.snd hexplore)
            (exploreNames_ne_none fun name hname hlisted => ?_)
          have hmem := hperm.mem_iff.1 (List.mem_filter.2 ⟨hname, hlisted⟩)
          obtain ⟨e, he, rfl⟩ := List.mem_map.1 hmem
          exact hnever.stat _ _ hfolder e he
        · dsimp only
          have hsteps := statSteps_exploreNames hexplore
          split_ifs with herrno
          · refine ⟨t₂, none, rfl, by simp, fun hnever => ?_⟩
            rw [hnever.errno _ _ hfolder t t₁ names t₂ hopen hsteps] at herrno
            exact absurd herrno Bool.false_ne_true
          · have hlists : ListsAs smb q.1 names :=
              ⟨t, t₁, t₂, hopen, hsteps, Bool.eq_false_iff.2 herrno⟩
            -- the entries in the order in which they are listed
            obtain ⟨entries, hnames, hentries⟩ : Relation.Comp (· = List.map GptEntry.name ·)
                List.Perm (names.filter isListed) q.2 := by
              rw [List.eq_map_comp_perm]
              exact hserves.listed _ _ hfolder names hlists
            obtain ⟨rfl, rfl⟩ := exploreNames_eq hnames
              (fun e he => hserves.stat _ _ hfolder e (hentries.mem_iff.1 he)) hexplore
            rw [← List.map_reverse, ← List.map_append]
            exact ih (h.step htree hentries ⟨names, hlists⟩) (turns_step hentries hfuel)

end

/-! ## Setting security descriptors -/

/-- What comes of setting a descriptor on the contents of a GPT: the paths that were passed to
    `smbc_setxattr` are recorded. -/
structure GptSync (τ : Type) where
  state : τ
  success : Bool
  passed : List String

section
variable {τ : Type} (smb : Smb τ) (setxattr : τ → String → String → τ × Bool) (text : String)

/-- The loop of `AdInterface::gpo_sync_perms` over the contents of the GPT. -/
def setPaths : τ → List String → GptSync τ
  | t, [] => ⟨t, true, []⟩
  | t, path :: pathList =>
    match setxattr t path text with
    | (t, false) => ⟨t, false, [path]⟩
    | (t, true) =>
      let rest := setPaths t pathList
      { rest with passed := path :: rest.passed }

/-- The part of `AdInterface::gpo_sync_perms` after the text of the descriptor is made. -/
def syncGpt (fuel : ℕ) (t : τ) (smbPath : String) : Option (GptSync τ) :=
  match gpoGetGptContents smb fuel t smbPath with
  | none => none
  | some (t, none) => some ⟨t, false, []⟩
  | some (t, some pathList) =>
    if pathList = [] then some ⟨t, false, []⟩ else some (setPaths setxattr text t pathList)

end

/-! ## Contents -/

section
variable {τ : Type} {smb : Smb τ} {setxattr : τ → String → String → τ × Bool} {text : String}
  {t : τ} {pathList : List String}

theorem passed_deletePaths : (deletePaths smb t pathList).passed <+: pathList ∧
    ((deletePaths smb t pathList).success = true →
      (deletePaths smb t pathList).passed = pathList) := by
  induction pathList generalizing t with
  | nil => exact ⟨List.prefix_refl _, fun _ => rfl⟩
  | cons path pathList ih =>
    rw [deletePaths]
    split
    · exact ⟨List.nil_prefix, fun h => absurd h Bool.false_ne_true⟩
    · split
      · exact ⟨List.prefix_append [path] pathList, fun h => absurd h Bool.false_ne_true⟩
      · exact ⟨(List.prefix_cons_inj path).2 ih.1, fun h => congrArg (path :: ·) (ih.2 h)⟩

theorem passed_setPaths : (setPaths setxattr text t pathList).passed <+: pathList ∧
    ((setPaths setxattr text t pathList).success = true →
      (setPaths setxattr text t pathList).passed = pathList) := by
  induction pathList generalizing t with
  | nil => exact ⟨List.prefix_refl _, fun _ => rfl⟩
  | cons path pathList ih =>
    rw [setPaths]
    split
    · exact ⟨List.prefix_append [path] pathList, nofun⟩
    · exact ⟨(List.prefix_cons_inj path).2 ih.1, fun h => congrArg (path :: ·) (ih.2 h)⟩

end

/-- Each path of the tree once, with each folder before what is in it. -/
structure ListsTree (root : String) (tree : List GptEntry) (pathList : List String) : Prop where
  perm : pathList.Perm (root :: pathsIn root tree)
  nodup : pathList.Nodup
  sorted : pathList.Pairwise fun path path' => ¬IsInside path path'

/-- What is passed on to be deleted: each folder after all that is in it, and all of the tree if
    nothing fails. -/
structure DeletesUpwards {τ : Type} (root : String) (tree : List GptEntry) (gpt : GptDeletion τ) :
    Prop where
  sorted : gpt.passed.Pairwise fun path path' => ¬IsInside path' path
  contents : ∀ path ∈ gpt.passed, ∀ path' ∈ pathsIn root tree, IsInside path' path →
    path' ∈ gpt.passed
  all : gpt.success = true → gpt.passed.Perm (root :: pathsIn root tree)

/-- What gets a security descriptor: each folder before all that is in it, and all of the tree if
    nothing fails. -/
structure SetsDownwards {τ : Type} (root : String) (tree : List GptEntry) (sync : GptSync τ) :
    Prop where
  sorted : sync.passed.Pairwise fun path path' => ¬IsInside path path'
  all : sync.success = true → sync.passed.Perm (root :: pathsIn root tree)

section
variable {τ : Type} {smb : Smb τ} {setxattr : τ → String → String → τ × Bool} {text root : String}
  {tree : List GptEntry} {t : τ} {pathList : List String}

theorem Walking.listsTree (htree : AllWellFormed tree) (h : Walking smb root tree pathList []) :
    ListsTree root tree pathList := by
  have hperm := h.perm
  rw [List.flatMap_nil, List.append_nil] at hperm
  refine ⟨hperm, hperm.nodup_iff.2 (List.nodup_cons.2 ⟨fun hmem => ?_, ?_⟩), h.sorted⟩
  · exact absurd (isInside_of_mem_pathsIn hmem).length_lt (Nat.lt_irrefl _)
  · exact nodup_pathsIn tree root htree

theorem ListsTree.deletesUpwards (h : ListsTree root tree pathList) :
    DeletesUpwards root tree (deletePaths smb t pathList.reverse) := by
  obtain ⟨hpassed, hall⟩ := @passed_deletePaths τ smb t pathList.reverse
  have hsorted := List.pairwise_reverse.2 h.sorted
  refine ⟨hsorted.sublist hpassed.sublist, fun path hpath path' hpath' hinside => ?_, fun hs => ?_⟩
  · obtain ⟨rest, hrest⟩ := hpassed
    rw [← hrest] at hsorted
    have hmem : path' ∈ pathList.reverse :=
      List.mem_reverse.2 (h.perm.mem_iff.2 (List.mem_cons_of_mem root hpath'))
    rw [← hrest] at hmem
    refine (List.mem_append.1 hmem).resolve_right fun hmem => ?_
    exact (List.pairwise_append.1 hsorted).2.2 path hpath path' hmem hinside
  · rw [hall hs]
    exact (List.reverse_perm pathList).trans h.perm

theorem ListsTree.setsDownwards (h : ListsTree root tree pathList) :
    SetsDownwards root tree (setPaths setxattr text t pathList) := by
  obtain ⟨hpassed, hall⟩ := @passed_setPaths τ setxattr text t pathList
  refine ⟨h.sorted.sublist hpassed.sublist, fun hs => ?_⟩
  rw [hall hs]
  exact h.perm

end

/-- On a share with a tree of folders, the walk of the GPT comes to an end, with each path once and
    each folder before what is in it, or with an error; it is an error whenever a folder cannot be
    listed, and none if nothing fails. What is deleted is deleted from the bottom up, and
    descriptors are set from the top down; after an error, nothing is. -/
theorem gptContents {τ : Type} (smb : Smb τ) (setxattr : τ → String → String → τ × Bool)
    (text root : String) (tree : List GptEntry) (htree : AllWellFormed tree)
    (hserves : Serves smb root tree) :
    ∃ n, ∀ fuel ≥ n, ∀ t, ∃ t' result gpt sync,
      gpoGetGptContents smb fuel t root = some (t', result) ∧
      deleteGpt smb fuel t root = some gpt ∧
      syncGpt smb setxattr text fuel t root = some sync ∧
      (∀ pathList, result = some pathList → ListsTree root tree pathList) ∧
      (NeverFails smb root tree → result ≠ none) ∧
      ((∃ path entries, FolderAt root tree path entries ∧ ∀ names, ¬ListsAs smb path names) →
        result = none) ∧
      (result = none → gpt.success = false ∧ gpt.passed = [] ∧
        sync.success = false ∧ sync.passed = []) ∧
      (result ≠ none → DeletesUpwards root tree gpt ∧ SetsDownwards root tree sync) := by
  refine ⟨1 + (pathsIn root tree).length, fun fuel hfuel t => ?_⟩
  have hle : [(root, tree)].length + ([(root, tree)].flatMap fun q => pathsIn q.1 q.2).length ≤
      fuel := by rwa [List.flatMap_singleton]
  obtain ⟨t', result, hresult, hwalk, hnever⟩ :=
    exploreFrom_spec (t := t) htree hserves Walking.start hle
  have hcontents : gpoGetGptContents smb fuel t root = some (t', result) := hresult
  rw [deleteGpt, syncGpt, hcontents]
  cases result with
  | none =>
    exact ⟨t', none, _, _, rfl, rfl, rfl, by simp, hnever, fun _ => rfl,
      fun _ => ⟨rfl, rfl, rfl, rfl⟩, fun h => absurd rfl h⟩
  | some pathList =>
    have hlists := (hwalk pathList rfl).listsTree htree
    have hne : pathList ≠ [] := by
      rintro rfl
      cases hlists.perm.length_eq
    refine ⟨t', some pathList, _, _, rfl, rfl, if_neg hne, fun _ h => Option.some.inj h ▸ hlists,
      hnever, ?_, by simp, fun _ => ⟨hlists.deletesUpwards, hlists.setsDownwards⟩⟩
    rintro ⟨path, entries, hpath, hnot⟩
    rcases (hwalk pathList rfl).listed path entries hpath with ⟨names, hnames⟩ | ⟨q, hq, -⟩
    · exact absurd hnames (hnot names)
    · exact absurd hq List.not_mem_nil

/-- A share with a GPT of a file and of a folder with another one. -/
def sampleShare : Smb Unit where
  openDir _ path :=
    ((), if path = "gpt" then some [".", "..", "GPT.INI", "Machine"]
      else if path = "gpt/Machine" then some [".", "..", "Registry.pol"] else none)
  errnoIsSet _ := false
  stat _ path := ((), some (path = "gpt" ∨ path = "gpt/Machine"))
  rmdir _ _ := ((), true)
  unlink _ _ := ((), true)
  openDir_names _ path t' names h := by
    have hnames := (Prod.mk.inj h).2
    split_ifs at hnames
    · exact Option.some.inj hnames ▸ by decide
    · exact Option.some.inj hnames ▸ by decide

/-- The tree of the share. -/
def sampleTree : List GptEntry := [.file "GPT.INI", .folder "Machine" [.file "Registry.pol"]]

theorem folderAt_sampleTree {path : String} {entries : List GptEntry}
    (h : FolderAt "gpt" sampleTree path entries) :
    path = "gpt" ∧ entries = sampleTree ∨
      path = "gpt/Machine" ∧ entries = [.file "Registry.pol"] := by
  induction h with
  | root => exact .inl ⟨rfl, rfl⟩
  | inside _ hmem ih =>
    rcases ih with ⟨rfl, rfl⟩ | ⟨rfl, rfl⟩
    · simp only [sampleTree, List.mem_cons, List.not_mem_nil, reduceCtorEq, or_false,
        GptEntry.folder.injEq, false_or] at hmem
      obtain ⟨rfl, rfl⟩ := hmem
      exact .inr ⟨rfl, rfl⟩
    · simp at hmem

theorem serves_sampleShare : Serves sampleShare "gpt" sampleTree where
  listed path entries hpath names := by
    rintro ⟨t, t₁, t₂, hopen, -, -⟩
    have hnames := (Prod.mk.inj hopen).2
    rcases folderAt_sampleTree hpath with ⟨rfl, rfl⟩ | ⟨rfl, rfl⟩
    · rw [if_pos rfl] at hnames
      exact Option.some.inj hnames ▸ by decide
    · rw [if_neg (by decide), if_pos rfl] at hnames
      exact Option.some.inj hnames ▸ by decide
  stat path entries hpath e he t t' isDir hstat := by
    have hisDir := Option.some.inj (Prod.mk.inj hstat).2
    rw [← hisDir]
    rcases folderAt_sampleTree hpath with ⟨rfl, rfl⟩ | ⟨rfl, rfl⟩
    · simp only [sampleTree, List.mem_cons, List.not_mem_nil, or_false] at he
      rcases he with rfl | rfl
      · decide
      · decide
    · obtain rfl := List.mem_singleton.1 he
      decide

/-- The walk of such a GPT. -/
theorem gptContents_sampleShare : ∃ n, ∀ fuel ≥ n, ∀ pathList,
    (∃ t', gpoGetGptContents sampleShare fuel () "gpt" = some (t', some pathList)) →
      ListsTree "gpt" sampleTree pathList := by
  obtain ⟨n, h⟩ := gptContents sampleShare (fun _ _ _ => ((), true)) "" "gpt" sampleTree
    (by simp [sampleTree, AllWellFormed, GptEntry.WellFormed, GptEntry.name, IsEntryName])
    serves_sampleShare
  refine ⟨n, fun fuel hfuel pathList hlist => ?_⟩
  obtain ⟨t', hlist⟩ := hlist
  obtain ⟨t', result, gpt, sync, hresult, -, -, hlists, -⟩ := h fuel hfuel ()
  exact hlists pathList (Prod.mk.inj (Option.some.inj (hresult.symm.trans hlist))).2

end Admc
