import Mathlib.Data.List.Infix
import Mathlib.Data.Option.Basic

/-!
# File trees

A tree is a list of what is under each path.

* `write` replaces or adds what is under a path, `removeTree` removes a directory, and `rename` moves
  one.  Their `get_` lemmas say what is under each path afterwards.
* `resolve` follows the parts of a path, of which `none` goes up.  `relativePlace` is where they lead
  if they never leave the directory that they start in.
* A path holds a file or is a directory.  `placeFile` makes the directories that a path leads through
  and writes the file, unless a file or a directory is in the way.
* A `Slot` is a place with the directories on the way to it.  In a directory that holds nothing but
  slots, none of which is in another's way, a file can be placed in each: `Slot.placed`.
-/

namespace LocalPlatform.FileTrees

variable {ν δ : Type}

/-! ## Paths -/

def descend (place : List ν) : Option ν → List ν
  | none => place.dropLast
  | some name => place ++ [name]

/-- The path that the parts lead to from a directory. -/
def resolve (base : List ν) (parts : List (Option ν)) : List ν := parts.foldl descend base

/-- The place below a directory that the parts lead to without leaving it. -/
def placeFrom (place : List ν) : List (Option ν) → Option (List ν)
  | [] => some place
  | none :: parts => if place = [] then none else placeFrom place.dropLast parts
  | some name :: parts => placeFrom (place ++ [name]) parts

def relativePlace (parts : List (Option ν)) : Option (List ν) := placeFrom [] parts

theorem placeFrom_cons {place found : List ν} {part : Option ν} {parts : List (Option ν)}
    (h : placeFrom place (part :: parts) = some found) :
    placeFrom (descend place part) parts = some found ∧
      ∀ base, descend (base ++ place) part = base ++ descend place part := by
  cases part with
  | none =>
    rw [placeFrom] at h
    split at h
    · cases h
    · next hne => exact ⟨h, fun base => List.dropLast_append_of_ne_nil hne⟩
  | some name => exact ⟨h, fun base => List.append_assoc _ _ _⟩

theorem resolve_placeFrom (parts : List (Option ν)) : ∀ {base place found : List ν},
    placeFrom place parts = some found → resolve (base ++ place) parts = base ++ found := by
  induction parts with
  | nil =>
    intro base place found h
    rw [← Option.some.inj h]
    rfl
  | cons part parts ih =>
    intro base place found h
    obtain ⟨hrest, hdescend⟩ := placeFrom_cons h
    show resolve (descend (base ++ place) part) parts = _
    rw [hdescend]
    exact ih hrest

theorem resolve_relativePlace {parts : List (Option ν)} {base place : List ν}
    (h : relativePlace parts = some place) : resolve base parts = base ++ place := by
  have hresolve := @resolve_placeFrom ν parts base [] place h
  rwa [List.append_nil] at hresolve

theorem placeFrom_append (as bs : List (Option ν)) : ∀ place : List ν,
    placeFrom place (as ++ bs) = (placeFrom place as).bind (fun found => placeFrom found bs) := by
  induction as with
  | nil =>
    intro place
    rfl
  | cons part as ih =>
    intro place
    cases part with
    | none =>
      rw [List.cons_append, placeFrom, placeFrom]
      split
      · rfl
      · exact ih _
    | some name => exact ih _

/-- The directories that the parts lead through. -/
def visited (base : List ν) : List (Option ν) → List (List ν)
  | [] => [base]
  | part :: parts => base :: visited (descend base part) parts

theorem visited_placeFrom (parts : List (Option ν)) : ∀ {base place found : List ν},
    placeFrom place parts = some found →
      visited (base ++ place) parts = (visited place parts).map (base ++ ·) := by
  induction parts with
  | nil =>
    intro base place found _
    rfl
  | cons part parts ih =>
    intro base place found h
    obtain ⟨hrest, hdescend⟩ := placeFrom_cons h
    rw [visited, visited, List.map_cons, hdescend, ih hrest]

theorem resolve_mem_visited (parts : List (Option ν)) : ∀ base : List ν,
    resolve base parts ∈ visited base parts := by
  induction parts with
  | nil =>
    intro base
    exact List.mem_singleton_self base
  | cons part parts ih =>
    intro base
    exact List.mem_cons_of_mem base (ih (descend base part))

/-! ## Trees -/

variable [DecidableEq ν]

abbrev Tree (ν δ : Type) := List (List ν × δ)

def get (tree : Tree ν δ) (path : List ν) : Option δ :=
  (tree.find? (fun file => file.1 = path)).map Prod.snd

def occupied (tree : Tree ν δ) (dir : List ν) : Bool :=
  tree.any (fun file => dir <+: file.1)

def write (tree : Tree ν δ) (path : List ν) (content : δ) : Tree ν δ :=
  (path, content) :: tree.filter (fun file => file.1 ≠ path)

def removeTree (tree : Tree ν δ) (dir : List ν) : Tree ν δ :=
  tree.filter (fun file => ¬ dir <+: file.1)

def rename (tree : Tree ν δ) (source target : List ν) : Tree ν δ :=
  tree.map (fun file =>
    if source <+: file.1 then (target ++ file.1.drop source.length, file.2) else file)

section Get

variable {tree : Tree ν δ} {path dir source target : List ν}

theorem get_isSome_iff : (get tree path).isSome ↔ ∃ file ∈ tree, file.1 = path := by
  simp [get, Option.isSome_map, List.find?_isSome]

theorem occupied_iff : occupied tree dir ↔ ∃ path, dir <+: path ∧ (get tree path).isSome := by
  simp only [occupied, List.any_eq_true, decide_eq_true_eq, get_isSome_iff]
  constructor
  · rintro ⟨file, hfile, hdir⟩
    exact ⟨file.1, hdir, file, hfile, rfl⟩
  · rintro ⟨path, hdir, file, hfile, rfl⟩
    exact ⟨file, hfile, hdir⟩

theorem get_eq_none (h : occupied tree dir = false) (hpath : dir <+: path) : get tree path = none := by
  rw [← Option.not_isSome_iff_eq_none]
  intro hsome
  rw [occupied_iff.mpr ⟨path, hpath, hsome⟩] at h
  cases h

theorem occupied_eq_false_iff :
    occupied tree dir = false ↔ ∀ path, dir <+: path → get tree path = none := by
  refine ⟨fun h path => get_eq_none h, fun h => ?_⟩
  rw [← Bool.not_eq_true, occupied_iff]
  rintro ⟨path, hdir, hsome⟩
  rw [h path hdir] at hsome
  cases hsome

@[simp] theorem get_write_self {content : δ} : get (write tree path content) path = some content := by
  simp [get, write]

theorem get_write_of_ne {content : δ} {other : List ν} (h : other ≠ path) :
    get (write tree path content) other = get tree other := by
  have htest : (fun file : List ν × δ => decide (file.1 ≠ path ∧ file.1 = other)) =
      fun file => decide (file.1 = other) := by
    funext file
    by_cases hfile : file.1 = other
    · simp [hfile, h]
    · simp [hfile]
  simp only [get, write, List.find?_cons, Ne.symm h, decide_false, List.find?_filter]
  simp only [decide_not, Bool.not_eq_eq_eq_not, Bool.not_true, decide_eq_false_iff_not,
    decide_eq_true_eq]
  rw [← htest]

end Get

/-! ## A renamed directory -/

section Rename

variable {tree : Tree ν δ} {path source target : List ν}

/-- Where a file is after its directory was renamed. -/
def moved (source target : List ν) (file : List ν × δ) : List ν × δ :=
  if source <+: file.1 then (target ++ file.1.drop source.length, file.2) else file

theorem get_rename_of_iff {before : List ν} (h : ∀ file ∈ tree,
    (moved source target file).1 = path ↔ file.1 = before) :
    get (rename tree source target) path = get tree before := by
  have hfind : tree.find? ((fun file => decide (file.1 = path)) ∘ moved source target) =
      tree.find? (fun file => decide (file.1 = before)) := by
    induction tree with
    | nil => rfl
    | cons file rest ih =>
      have hrest := ih (fun other hother => h other (List.mem_cons_of_mem file hother))
      rw [List.find?_cons, List.find?_cons, hrest, Function.comp_apply,
        decide_eq_decide.mpr (h file List.mem_cons_self)]
  have hcontent : (Prod.snd ∘ moved source target : List ν × δ → δ) = Prod.snd := by
    funext file
    simp only [Function.comp_apply, moved]
    split <;> rfl
  unfold get rename
  show ((tree.map (moved source target)).find? _).map Prod.snd = _
  rw [List.find?_map, Option.map_map, hfind, hcontent]

theorem get_rename_target {rest : List ν} (hfree : occupied tree target = false) :
    get (rename tree source target) (target ++ rest) = get tree (source ++ rest) := by
  apply get_rename_of_iff
  intro file hfile
  unfold moved
  split
  · next hsource =>
    obtain ⟨inner, hinner⟩ := hsource
    rw [← hinner, List.drop_left]
    simp
  · next hsource =>
    have htarget : ¬ target <+: file.1 := by
      intro habove
      have hsome : (get tree file.1).isSome := get_isSome_iff.mpr ⟨file, hfile, rfl⟩
      rw [get_eq_none hfree habove] at hsome
      cases hsome
    constructor
    · intro heq
      exact absurd (heq ▸ List.prefix_append target rest) htarget
    · intro heq
      exact absurd (heq ▸ List.prefix_append source rest) hsource

theorem get_rename_of_apart (hsource : ¬ source <+: path) (htarget : ¬ target <+: path) :
    get (rename tree source target) path = get tree path := by
  apply get_rename_of_iff
  intro file _
  unfold moved
  split
  · next hold =>
    constructor
    · intro heq
      exact absurd (heq ▸ List.prefix_append _ _) htarget
    · intro heq
      exact absurd (heq ▸ hold) hsource
  · exact Iff.rfl

end Rename

/-! ## Files and directories -/

inductive Entry (δ : Type) where
  | directory
  | file (content : δ)
  deriving DecidableEq

section Entries

variable (tree : Tree ν (Entry δ))

def isFile (path : List ν) : Bool :=
  match get tree path with
  | some (.file _) => true
  | _ => false

/-- A file is at the path, or where one of the directories above it would be. -/
def blocked (path : List ν) : Bool := path.inits.any (isFile tree)

def isDirectory (path : List ν) : Bool :=
  match get tree path with
  | some .directory => true
  | _ => tree.any (fun entry => path <+: entry.1 ∧ entry.1 ≠ path)

def makeDirectory (path : List ν) : Option (Tree ν (Entry δ)) :=
  if blocked tree path then none
  else if (get tree path).isSome then some tree
  else some (write tree path .directory)

def makeDirectories (paths : List (List ν)) : Option (Tree ν (Entry δ)) :=
  paths.foldlM makeDirectory tree

def writeFile (path : List ν) (content : δ) : Option (Tree ν (Entry δ)) :=
  if isDirectory tree path ∨ blocked tree path.dropLast then none
  else some (write tree path (.file content))

/-- A file is written, after the directories on the way to it were made. -/
def placeFile (directories : List (List ν)) (path : List ν) (content : δ) :
    Option (Tree ν (Entry δ)) :=
  (makeDirectories tree directories).bind (fun made => writeFile made path content)

end Entries

section Spec

variable {tree tree' : Tree ν (Entry δ)} {path : List ν}

theorem isFile_iff : isFile tree path ↔ ∃ content, get tree path = some (.file content) := by
  unfold isFile
  split
  · next content h => simp [h]
  · next h =>
    simp only [Bool.false_eq_true, false_iff, not_exists]
    intro content hcontent
    exact h content hcontent

theorem blocked_iff : blocked tree path ↔ ∃ above, above <+: path ∧ isFile tree above := by
  simp [blocked, List.any_eq_true, List.mem_inits]

theorem isDirectory_eq_false (hget : get tree path ≠ some .directory)
    (hbelow : ∀ other, path <+: other → other ≠ path → get tree other = none) :
    isDirectory tree path = false := by
  unfold isDirectory
  split
  · next h => exact absurd h hget
  · rw [← Bool.not_eq_true, List.any_eq_true]
    rintro ⟨entry, hentry, htest⟩
    obtain ⟨habove, hne⟩ := of_decide_eq_true htest
    have hsome : (get tree entry.1).isSome := get_isSome_iff.mpr ⟨entry, hentry, rfl⟩
    rw [hbelow entry.1 habove hne] at hsome
    cases hsome

/-- Nothing changes but that some paths, which held nothing, are directories. -/
def AddsDirectories (paths : List (List ν)) (tree tree' : Tree ν (Entry δ)) : Prop :=
  ∀ path, get tree' path = get tree path ∨
    (path ∈ paths ∧ get tree path = none ∧ get tree' path = some .directory)

theorem AddsDirectories.file {paths : List (List ν)} (h : AddsDirectories paths tree tree')
    (path : List ν) (content : δ) :
    get tree' path = some (.file content) ↔ get tree path = some (.file content) := by
  rcases h path with hsame | ⟨_, hnone, hdirectory⟩
  · rw [hsame]
  · simp [hnone, hdirectory]

theorem AddsDirectories.blocked {paths : List (List ν)} (h : AddsDirectories paths tree tree')
    (path : List ν) : blocked tree' path = blocked tree path := by
  rw [Bool.eq_iff_iff, blocked_iff, blocked_iff]
  simp only [isFile_iff, h.file]

theorem makeDirectory_spec (h : blocked tree path = false) :
    ∃ tree', makeDirectory tree path = some tree' ∧ AddsDirectories [path] tree tree' := by
  unfold makeDirectory
  rw [if_neg (by simp [h])]
  split
  · exact ⟨tree, rfl, fun other => Or.inl rfl⟩
  · next hnone =>
    refine ⟨_, rfl, fun other => ?_⟩
    by_cases hother : other = path
    · rw [hother]
      exact Or.inr ⟨List.mem_singleton_self path, by simpa using hnone, get_write_self⟩
    · exact Or.inl (get_write_of_ne hother)

theorem makeDirectories_spec (paths : List (List ν)) : ∀ {tree : Tree ν (Entry δ)},
    (∀ path ∈ paths, blocked tree path = false) →
      ∃ tree', makeDirectories tree paths = some tree' ∧ AddsDirectories paths tree tree' := by
  induction paths with
  | nil =>
    intro tree _
    exact ⟨tree, rfl, fun other => Or.inl rfl⟩
  | cons path paths ih =>
    intro tree h
    obtain ⟨made, hmade, hadds⟩ := makeDirectory_spec (h path List.mem_cons_self)
    have hmade' : ∀ other ∈ paths, blocked made other = false := by
      intro other hother
      rw [hadds.blocked other]
      exact h other (List.mem_cons_of_mem path hother)
    obtain ⟨tree', htree', hrest⟩ := ih hmade'
    refine ⟨tree', ?_, fun other => ?_⟩
    · unfold makeDirectories
      rw [List.foldlM_cons, hmade]
      exact htree'
    · rcases hrest other with hsame | ⟨hmem, hnone, hdirectory⟩
      · rcases hadds other with hsame' | ⟨hmem, hnone, hdirectory⟩
        · exact Or.inl (hsame.trans hsame')
        · obtain rfl := List.mem_singleton.mp hmem
          exact Or.inr ⟨List.mem_cons_self, hnone, hsame.trans hdirectory⟩
      · rcases hadds other with hsame' | ⟨_, _, hdirectory'⟩
        · exact Or.inr ⟨List.mem_cons_of_mem path hmem, hsame' ▸ hnone, hdirectory⟩
        · rw [hdirectory'] at hnone
          cases hnone

end Spec

/-! ## Slots -/

/-- A place for a file, and the directories on the way to it. -/
structure Slot (ν : Type) where
  directories : List (List ν)
  place : List ν
  deriving DecidableEq

namespace Slot

variable {slots : List (Slot ν)} {tree : Tree ν (Entry δ)} {base : List ν}

def ofParts (parts : List (Option ν)) : Slot ν where
  directories := visited [] parts.dropLast
  place := resolve [] parts

/-- Each place is in a directory on the way to it, and no place is where a directory of a slot is, or
above one. -/
structure Clear (slots : List (Slot ν)) : Prop where
  reached : ∀ slot ∈ slots, slot.place.dropLast ∈ slot.directories
  apart : ∀ slot ∈ slots, ∀ other ∈ slots, ∀ directory ∈ other.directories,
    ¬ slot.place <+: directory

section Parts

variable {parts : List (Option ν)}

omit [DecidableEq ν] in
theorem resolve_ofParts (h : (relativePlace parts).isSome) (base : List ν) :
    resolve base parts = base ++ (ofParts parts).place := by
  obtain ⟨place, hplace⟩ := Option.isSome_iff_exists.mp h
  unfold ofParts
  rw [resolve_relativePlace hplace, resolve_relativePlace hplace, List.nil_append]

omit [DecidableEq ν] in
theorem visited_ofParts (h : (relativePlace parts).isSome) (base : List ν) :
    visited base parts.dropLast = (ofParts parts).directories.map (base ++ ·) := by
  have hinit : (relativePlace parts.dropLast).isSome := by
    rcases List.eq_nil_or_concat' parts with rfl | ⟨init, last, rfl⟩
    · exact h
    · rw [List.dropLast_concat]
      unfold relativePlace at h ⊢
      rw [placeFrom_append] at h
      exact Option.isSome_of_isSome_bind h
  obtain ⟨place, hplace⟩ := Option.isSome_iff_exists.mp hinit
  have hvisited := @visited_placeFrom ν parts.dropLast base [] place hplace
  rwa [List.append_nil] at hvisited

omit [DecidableEq ν] in
theorem ofParts_reached
    (hapart : ∀ directory ∈ (ofParts parts).directories, ¬ (ofParts parts).place <+: directory) :
    (ofParts parts).place.dropLast ∈ (ofParts parts).directories := by
  have hlast := resolve_mem_visited parts.dropLast ([] : List ν)
  rcases List.eq_nil_or_concat' parts with rfl | ⟨init, last, rfl⟩
  · exact absurd (List.prefix_refl []) (hapart [] hlast)
  · have hplace : (ofParts (init ++ [last])).place = descend (resolve [] init) last := by
      simp [ofParts, resolve, List.foldl_append]
    have hmem : resolve [] init ∈ (ofParts (init ++ [last])).directories := by
      show _ ∈ visited [] (init ++ [last]).dropLast
      rwa [List.dropLast_concat] at hlast ⊢
    cases last with
    | none =>
      have habove : (ofParts (init ++ [none])).place <+: resolve [] init := by
        rw [hplace]
        exact List.dropLast_prefix _
      exact absurd habove (hapart _ hmem)
    | some name =>
      rw [hplace]
      show (resolve [] init ++ [name]).dropLast ∈ _
      rwa [List.dropLast_concat]

end Parts

/-- Nothing but slots is used in a directory. -/
structure Within (tree : Tree ν (Entry δ)) (base : List ν) (slots : List (Slot ν)) : Prop where
  file : ∀ path content, get tree (base ++ path) = some (.file content) →
    ∃ slot ∈ slots, path = slot.place
  directory : ∀ path, get tree (base ++ path) = some .directory →
    ∃ slot ∈ slots, path ∈ slot.directories

theorem within_of_free (h : occupied tree base = false) : Within tree base slots where
  file := by
    intro path content hget
    rw [get_eq_none h (List.prefix_append base path)] at hget
    cases hget
  directory := by
    intro path hget
    rw [get_eq_none h (List.prefix_append base path)] at hget
    cases hget

/-- What placing a file does. -/
structure Placed (base : List ν) (slots : List (Slot ν)) (slot : Slot ν) (content : δ)
    (tree tree' : Tree ν (Entry δ)) : Prop where
  within : Within tree' base slots
  placed : get tree' (base ++ slot.place) = some (.file content)
  kept : ∀ path other, path ≠ base ++ slot.place → get tree path = some (.file other) →
    get tree' path = some (.file other)
  outside : ∀ path, ¬ base <+: path → get tree' path = get tree path

theorem Within.not_blocked {parent : List ν} {name : ν} (hwithin : Within tree (parent ++ [name]) slots)
    (hclear : Clear slots) (hparent : blocked tree parent = false) {slot : Slot ν} (hslot : slot ∈ slots)
    {directory : List ν} (hdirectory : directory ∈ slot.directories) :
    blocked tree (parent ++ [name] ++ directory) = false := by
  rw [← Bool.not_eq_true, blocked_iff]
  rintro ⟨above, habove, hfile⟩
  -- A file in the directory of the slots is at a place.
  have hinside : ∀ rest, above = parent ++ [name] ++ rest → False := by
    intro rest hrest
    obtain ⟨content, hget⟩ := isFile_iff.mp hfile
    obtain ⟨other, hother, hplace⟩ := hwithin.file rest content (hrest ▸ hget)
    rw [hrest, List.prefix_append_right_inj] at habove
    exact hclear.apart other hother slot hslot directory hdirectory (hplace ▸ habove)
  rcases List.prefix_or_prefix_of_prefix habove (List.prefix_append _ directory) with hbase | hbase
  · rcases List.prefix_concat_iff.mp hbase with heq | habove
    · exact hinside [] (by rw [heq, List.append_nil])
    · rw [← Bool.not_eq_true, blocked_iff] at hparent
      exact hparent ⟨above, habove, hfile⟩
  · obtain ⟨rest, hrest⟩ := hbase
    exact hinside rest hrest.symm

omit [DecidableEq ν] in
theorem Clear.place_ne_nil (hclear : Clear slots) {slot : Slot ν} (hslot : slot ∈ slots) :
    slot.place ≠ [] := by
  intro hnil
  apply hclear.apart slot hslot slot hslot _ (hclear.reached slot hslot)
  rw [hnil]
  exact List.nil_prefix

omit [DecidableEq ν] in
theorem Clear.eq_of_prefix (hclear : Clear slots) {slot other : Slot ν} (hslot : slot ∈ slots)
    (hother : other ∈ slots) (h : slot.place <+: other.place) : slot.place = other.place := by
  have hne := hclear.place_ne_nil hother
  rw [← List.dropLast_append_getLast hne] at h
  rcases List.prefix_concat_iff.mp h with heq | habove
  · rw [heq, List.dropLast_append_getLast hne]
  · exact absurd habove
      (hclear.apart slot hslot other hother _ (hclear.reached other hother))

theorem Within.not_isDirectory (hwithin : Within tree base slots) (hclear : Clear slots)
    {slot : Slot ν} (hslot : slot ∈ slots) : isDirectory tree (base ++ slot.place) = false := by
  apply isDirectory_eq_false
  · intro hget
    obtain ⟨other, hother, hdirectory⟩ := hwithin.directory slot.place hget
    exact hclear.apart slot hslot other hother _ hdirectory (List.prefix_refl _)
  · rintro path ⟨rest, rfl⟩ hne
    rw [List.append_assoc] at hne ⊢
    cases hget : get tree (base ++ (slot.place ++ rest)) with
    | none => rfl
    | some entry =>
      cases entry with
      | directory =>
        obtain ⟨other, hother, hdirectory⟩ := hwithin.directory _ hget
        exact absurd (List.prefix_append _ _) (hclear.apart slot hslot other hother _ hdirectory)
      | file content =>
        obtain ⟨other, hother, hplace⟩ := hwithin.file _ content hget
        have heq := hclear.eq_of_prefix hslot hother (hplace ▸ List.prefix_append _ _)
        rw [hplace, heq] at hne
        exact absurd rfl hne

/-- What making directories does. -/
structure Made (base : List ν) (slots : List (Slot ν)) (tree tree' : Tree ν (Entry δ)) : Prop where
  within : Within tree' base slots
  file : ∀ path content, get tree' path = some (.file content) ↔ get tree path = some (.file content)
  blocked : ∀ path, blocked tree' path = blocked tree path
  outside : ∀ path, ¬ base <+: path → get tree' path = get tree path

section Place

variable {parent : List ν} {name : ν} {slot : Slot ν}

theorem Within.made (hwithin : Within tree (parent ++ [name]) slots) (hclear : Clear slots)
    (hparent : blocked tree parent = false) (hslot : slot ∈ slots) :
    ∃ tree', makeDirectories tree (slot.directories.map (parent ++ [name] ++ ·)) = some tree' ∧
      Made (parent ++ [name]) slots tree tree' := by
  have hfree : ∀ path ∈ slot.directories.map (parent ++ [name] ++ ·), blocked tree path = false := by
    simp only [List.mem_map, forall_exists_index, and_imp, forall_apply_eq_imp_iff₂]
    intro directory hdirectory
    exact hwithin.not_blocked hclear hparent hslot hdirectory
  obtain ⟨tree', htree', hadds⟩ := makeDirectories_spec _ hfree
  refine ⟨tree', htree', ?_, hadds.file, hadds.blocked, ?_⟩
  · constructor
    · intro path other hget
      exact hwithin.file path other ((hadds.file _ _).mp hget)
    · intro path hget
      rcases hadds (parent ++ [name] ++ path) with hsame | ⟨hmem, _, _⟩
      · exact hwithin.directory path (hsame ▸ hget)
      · obtain ⟨directory, hdirectory, heq⟩ := List.mem_map.mp hmem
        obtain rfl := List.append_cancel_left heq
        exact ⟨slot, hslot, hdirectory⟩
  · intro path houtside
    rcases hadds path with hsame | ⟨hmem, _, _⟩
    · exact hsame
    · obtain ⟨directory, _, rfl⟩ := List.mem_map.mp hmem
      exact absurd (List.prefix_append _ _) houtside

theorem Within.written (hwithin : Within tree (parent ++ [name]) slots) (hclear : Clear slots)
    (hparent : blocked tree parent = false) (hslot : slot ∈ slots) (content : δ) :
    ∃ tree', writeFile tree (parent ++ [name] ++ slot.place) content = some tree' ∧
      Placed (parent ++ [name]) slots slot content tree tree' := by
  refine ⟨write tree (parent ++ [name] ++ slot.place) (.file content), ?_, ?_, get_write_self, ?_, ?_⟩
  · unfold writeFile
    rw [if_neg]
    rw [not_or, Bool.not_eq_true, Bool.not_eq_true]
    refine ⟨hwithin.not_isDirectory hclear hslot, ?_⟩
    rw [List.dropLast_append_of_ne_nil (hclear.place_ne_nil hslot)]
    exact hwithin.not_blocked hclear hparent hslot (hclear.reached slot hslot)
  · constructor
    · intro path other hget
      by_cases hpath : path = slot.place
      · exact ⟨slot, hslot, hpath⟩
      · rw [get_write_of_ne (fun heq => hpath (List.append_cancel_left heq))] at hget
        exact hwithin.file path other hget
    · intro path hget
      by_cases hpath : path = slot.place
      · rw [hpath, get_write_self] at hget
        cases hget
      · rw [get_write_of_ne (fun heq => hpath (List.append_cancel_left heq))] at hget
        exact hwithin.directory path hget
  · intro path other hne hget
    rw [get_write_of_ne hne]
    exact hget
  · intro path houtside
    apply get_write_of_ne
    rintro rfl
    exact houtside (List.prefix_append _ _)

theorem Within.placed (hwithin : Within tree (parent ++ [name]) slots) (hclear : Clear slots)
    (hparent : blocked tree parent = false) (hslot : slot ∈ slots) (content : δ) :
    ∃ tree', placeFile tree (slot.directories.map (parent ++ [name] ++ ·))
        (parent ++ [name] ++ slot.place) content = some tree' ∧
      Placed (parent ++ [name]) slots slot content tree tree' := by
  obtain ⟨made, hmade, hmade'⟩ := hwithin.made hclear hparent hslot
  obtain ⟨tree', hwrite, hplaced⟩ :=
    hmade'.within.written hclear ((hmade'.blocked parent).trans hparent) hslot content
  refine ⟨tree', ?_, hplaced.within, hplaced.placed, ?_, ?_⟩
  · unfold placeFile
    rw [hmade]
    exact hwrite
  · intro path other hne hget
    exact hplaced.kept path other hne ((hmade'.file path other).mpr hget)
  · intro path houtside
    exact (hplaced.outside path houtside).trans (hmade'.outside path houtside)

end Place

end Slot

end LocalPlatform.FileTrees
