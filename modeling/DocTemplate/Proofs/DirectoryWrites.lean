import DocTemplate.Directory
import DocTemplate.Proofs.Entries

/-! What a write changes in a directory: the one file that its path names, which then holds the text
that was written. Everything else is seen as before. -/
namespace DocTemplate

/-- What is seen at the end of a straight way from the root. -/
inductive Sight where
  | file (content : ByteArray)
  | device
  | directory

def FileNode.sight : FileNode → Sight
  | .file content => .file content
  | .device => .device
  | .directory _ => .directory

namespace Directory

variable {d after : Directory} {root inner : Entries FileNode none} {node : FileNode}
  {passed : List (String × Entries FileNode none)} {path text name : String}
  {names way more back : List String} {content : ByteArray}
  {look look' : List String → Option Sight}

def sightFrom (root : Entries FileNode none) (way : List String) : Option Sight :=
  (node? root way).map FileNode.sight

def sight? (d : Directory) (way : List String) : Option Sight := sightFrom d.root way

/-- The straight way from the root to what a path names. -/
def way? (d : Directory) (path : String) : Option (List String) := (d.find path).toOption.map (·.1)

theorem node?_directory (h : root.get? name = some (.directory inner)) :
    node? root (name :: way) = node? inner way := by
  cases way <;> simp only [node?, h]

theorem node?_last : node? root [name] = root.get? name := by
  cases h : root.get? name <;> simp only [node?, h]

theorem node?_below (h : ∀ inner, root.get? name ≠ some (.directory inner)) (hne : way ≠ []) :
    node? root (name :: way) = none :=
  node?.eq_4 root name way (fun _ _ he => hne he) (fun inner _ _ hg _ => h inner hg)

theorem node?_congr {other : Entries FileNode none} (h : root.get? name = other.get? name) :
    node? root (name :: way) = node? other (name :: way) := by
  rw [node?.eq_def, node?.eq_def other]
  simp only [h]

theorem node?_append (h : node? root way = some (.directory inner)) :
    node? root (way ++ more) = node? inner more := by
  induction way generalizing root with
  | nil =>
    cases h
    rfl
  | cons name way ih =>
    by_cases hd : ∃ children, root.get? name = some (.directory children)
    · obtain ⟨children, hg⟩ := hd
      rw [node?_directory hg] at h
      rw [List.cons_append, node?_directory hg, ih h]
    · by_cases hw : way = []
      · subst hw
        rw [node?_last] at h
        exact (hd ⟨inner, h⟩).elim
      · rw [node?_below (fun children hg => hd ⟨children, hg⟩) hw] at h
        cases h

theorem sightFrom_directory (h : root.get? name = some (.directory inner)) :
    sightFrom root (name :: way) = sightFrom inner way := by
  rw [sightFrom, node?_directory h, sightFrom]

theorem sightFrom_insert_of_ne {other : String} (h : other ≠ name) :
    sightFrom (root.insert name node) (other :: way) = sightFrom root (other :: way) := by
  have hg : (root.insert name node).get? other = root.get? other := by
    rw [Entries.get?_insert, if_neg h]
  rw [sightFrom, node?_congr hg, sightFrom]

theorem sightFrom_insert_file (h : ∀ inner, root.get? name ≠ some (.directory inner)) :
    sightFrom (root.insert name (.file content)) (name :: way) =
      if way = [] then some (.file content) else sightFrom root (name :: way) := by
  have hself : (root.insert name (.file content)).get? name = some (.file content) :=
    Entries.get?_insert_self root
  by_cases hw : way = []
  · subst hw
    rw [if_pos rfl, sightFrom, node?_last, hself]
    rfl
  · rw [if_neg hw, sightFrom, sightFrom, node?_below h hw]
    rw [node?_below (fun inner hg => by cases hself.symm.trans hg) hw]

theorem exists_directory_of_sightFrom (h : sightFrom root [name] = some .directory) :
    ∃ inner, root.get? name = some (.directory inner) := by
  rw [sightFrom, node?_last] at h
  obtain ⟨node, hg, hs⟩ := Option.map_eq_some_iff.mp h
  cases node with
  | directory inner => exact ⟨inner, hg⟩
  | _ => cases hs

/-- A file that is put where directories lead, and where no directory stands, is seen there, and
nothing else is seen in another way. -/
theorem sightFrom_place (hway : ∀ front, front <+: name :: more → front ≠ name :: more →
      sightFrom root front = some .directory)
    (hend : sightFrom root (name :: more) ≠ some .directory) :
    sightFrom (FileNode.place (.file content) root name more) way =
      if way = name :: more then some (.file content) else sightFrom root way := by
  induction more generalizing root name way with
  | nil =>
    have hfree : ∀ inner, root.get? name ≠ some (.directory inner) := by
      intro inner hg
      exact hend (sightFrom_directory hg)
    cases way with
    | nil => rfl
    | cons first rest =>
      rw [FileNode.place]
      by_cases he : first = name
      · subst he
        rw [sightFrom_insert_file hfree]
        simp only [List.cons.injEq, true_and]
      · rw [sightFrom_insert_of_ne he, if_neg (fun h => he (List.cons.inj h).1)]
  | cons next more ih =>
    have hfirst : [name] <+: name :: next :: more := ⟨next :: more, rfl⟩
    obtain ⟨inner, hg⟩ := exists_directory_of_sightFrom (hway [name] hfirst (by simp))
    have hplace : FileNode.place (.file content) root name (next :: more) =
        root.insert name (.directory (FileNode.place (.file content) inner next more)) := by
      rw [FileNode.place, hg]
    rw [hplace]
    cases way with
    | nil => rfl
    | cons first rest =>
      by_cases he : first = name
      · subst he
        rw [sightFrom_directory (Entries.get?_insert_self root), sightFrom_directory hg]
        rw [sightFrom_directory hg] at hend
        have hinner : ∀ front, front <+: next :: more → front ≠ next :: more →
            sightFrom inner front = some .directory := by
          intro front hp hne
          rw [← sightFrom_directory hg]
          exact hway _ (List.cons_prefix_cons.mpr ⟨rfl, hp⟩) (fun h => hne (List.cons.inj h).2)
        rw [ih hinner hend]
        simp only [List.cons.injEq, true_and]
      · rw [sightFrom_insert_of_ne he, if_neg (fun h => he (List.cons.inj h).1)]

/-! A path is walked part by part, and each step looks only at what is seen where it leads. -/

/-- The parts lead from the names passed, given from the last one back, to the names at the end.
What they pass through are directories, and the last part may lead to anything. -/
inductive Leads (look : List String → Option Sight) :
    List String → List String → List String → Prop
  | stay {passed : List String} : Leads look passed [] passed.reverse
  | up {passed more names : List String} (h : Leads look passed.tail more names) :
      Leads look passed (".." :: more) names
  | into {passed more names : List String} {part : String} (hup : part ≠ "..")
      (hlook : look (part :: passed).reverse = some .directory)
      (h : Leads look (part :: passed) more names) : Leads look passed (part :: more) names
  | last {passed : List String} {part : String} (hup : part ≠ "..")
      (hlook : look (part :: passed).reverse ≠ some .directory) :
      Leads look passed [part] (part :: passed).reverse

/-- Where something else than a directory is seen at the end only, the way leads there too. -/
theorem Leads.congr {front : List String} (h : Leads look front more names)
    (hsame : ∀ way, way ≠ names → look' way = look way) (hend : look names ≠ some .directory)
    (hend' : look' names ≠ some .directory) : Leads look' front more names := by
  induction h with
  | stay => exact stay
  | up _ ih => exact up (ih hsame hend hend')
  | into hup hlook _ ih =>
    refine into hup ?_ (ih hsame hend hend')
    rw [hsame, hlook]
    rintro rfl
    exact hend hlook
  | last hup _ => exact last hup hend'

theorem Leads.directories {passed front : List String} (h : Leads look passed more names)
    (hpassed : ∀ front, front <+: passed.reverse → look front = some .directory)
    (hp : front <+: names) (hne : front ≠ names) : look front = some .directory := by
  induction h with
  | stay => exact hpassed front hp
  | up _ ih =>
    refine ih ?_ hp hne
    intro front hf
    apply hpassed
    rw [← List.dropLast_reverse] at hf
    exact hf.trans (List.dropLast_prefix _)
  | into _ hlook _ ih =>
    refine ih ?_ hp hne
    intro front hf
    rw [List.reverse_cons, List.prefix_concat_iff] at hf
    rcases hf with rfl | hf
    · rw [← List.reverse_cons]
      exact hlook
    · exact hpassed front hf
  | last =>
    rw [List.reverse_cons, List.prefix_concat_iff] at hp
    rcases hp with rfl | hp
    · exact (hne List.reverse_cons.symm).elim
    · exact hpassed front hp

/-- The directory where a walk stands. -/
def here (root : Entries FileNode none) : List (String × Entries FileNode none) →
    Entries FileNode none
  | [] => root
  | (_, children) :: _ => children

/-- Each directory passed was found under its name in the one before it. -/
def Passed (root : Entries FileNode none) : List (String × Entries FileNode none) → Prop
  | [] => True
  | (name, children) :: passed =>
    Passed root passed ∧ (here root passed).get? name = some (.directory children)

theorem node?_passed (h : Passed root passed) :
    node? root (passed.map (·.1)).reverse = some (.directory (here root passed)) := by
  induction passed with
  | nil => rfl
  | cons entry passed ih =>
    obtain ⟨hpassed, hg⟩ := h
    rw [List.map_cons, List.reverse_cons, node?_append (ih hpassed), node?_last, hg]
    rfl

theorem Passed.tail (h : Passed root passed) : Passed root passed.tail := by
  cases passed with
  | nil => exact h
  | cons => exact h.1

theorem sightFrom_next (h : Passed root passed) :
    sightFrom root (name :: passed.map (·.1)).reverse =
      ((here root passed).get? name).map FileNode.sight := by
  rw [List.reverse_cons, sightFrom, node?_append (node?_passed h), node?_last]

theorem walk_into (hup : name ≠ "..") (h : (here root passed).get? name = some (.directory inner)) :
    walk root passed (name :: more) = walk root ((name, inner) :: passed) more := by
  apply walk.eq_3 _ _ _ _ _ hup
  cases passed <;> exact h

theorem walk_last (hup : name ≠ "..")
    (h : ∀ inner, (here root passed).get? name ≠ some (.directory inner)) :
    walk root passed [name] = .ok (name :: passed.map (·.1)).reverse := by
  apply walk.eq_4 _ _ _ hup
  intro inner hg
  apply h inner
  cases passed <;> exact hg

theorem walk_blocked {next : String} (hup : name ≠ "..")
    (h : ∀ inner, (here root passed).get? name ≠ some (.directory inner)) :
    ∃ cause, walk root passed (name :: next :: more) = .error cause := by
  cases hg : (here root passed).get? name with
  | none =>
    refine ⟨absence name, walk.eq_6 _ _ _ _ _ hup ?_⟩
    cases passed <;> exact hg
  | some node =>
    refine ⟨.notDirectory, walk.eq_5 _ _ _ _ _ hup node ?_ ?_⟩
    · cases passed <;> exact hg
    · rintro inner rfl
      exact h inner hg

theorem walk_eq_ok_iff (h : Passed root passed) :
    walk root passed more = .ok names ↔ Leads (sightFrom root) (passed.map (·.1)) more names := by
  induction more generalizing passed with
  | nil =>
    rw [walk, Except.ok.injEq]
    constructor
    · rintro rfl
      exact .stay
    · rintro ⟨⟩
      rfl
  | cons part more ih =>
    by_cases hup : part = ".."
    · subst hup
      rw [walk, ih h.tail, List.map_tail]
      refine ⟨.up, fun hl => ?_⟩
      cases hl with
      | up hl => exact hl
      | into hup => exact (hup rfl).elim
      | last hup => exact (hup rfl).elim
    · have hnext : sightFrom root (part :: passed.map (·.1)).reverse =
          ((here root passed).get? part).map FileNode.sight := sightFrom_next h
      by_cases hd : ∃ inner, (here root passed).get? part = some (.directory inner)
      · obtain ⟨inner, hg⟩ := hd
        have hlook : sightFrom root (part :: passed.map (·.1)).reverse = some .directory := by
          rw [hnext, hg]
          rfl
        have hpassed : Passed root ((part, inner) :: passed) := ⟨h, hg⟩
        rw [walk_into hup hg, ih hpassed]
        refine ⟨.into hup hlook, fun hl => ?_⟩
        cases hl with
        | up => exact (hup rfl).elim
        | into _ _ hl => exact hl
        | last _ hn => exact (hn hlook).elim
      · have hnone : ∀ inner, (here root passed).get? part ≠ some (.directory inner) :=
          fun inner hg => hd ⟨inner, hg⟩
        have hlook : sightFrom root (part :: passed.map (·.1)).reverse ≠ some .directory := by
          rw [hnext]
          intro hs
          obtain ⟨node, hg, hs⟩ := Option.map_eq_some_iff.mp hs
          cases node with
          | directory inner => exact hnone inner hg
          | _ => cases hs
        cases more with
        | nil =>
          rw [walk_last hup hnone, Except.ok.injEq]
          constructor
          · rintro rfl
            exact .last hup hlook
          · intro hl
            cases hl with
            | up => exact (hup rfl).elim
            | into _ hn => exact (hlook hn).elim
            | last => rfl
        | cons next more =>
          obtain ⟨cause, hw⟩ : ∃ cause, walk root passed (part :: next :: more) = .error cause :=
            walk_blocked hup hnone
          rw [hw]
          constructor
          · intro he
            cases he
          · intro hl
            cases hl with
            | up => exact (hup rfl).elim
            | into _ hn => exact (hlook hn).elim

/-- Where a path begins, and its parts from there. -/
def steps (d : Directory) (path : String) : List String :=
  (if path.startsWith "/" then [] else d.working) ++ parts path

theorem find_eq (he : path.isEmpty = false) (hl : ¬ longestPath < Text.byteSize path.toList) :
    d.find path =
      (walk d.root [] (d.steps path)).map fun names => (names, node? d.root names) := by
  simp only [find, he, hl, if_false, Bool.false_eq_true]
  rw [← steps]
  cases walk d.root [] (d.steps path) <;> rfl

theorem find_eq_ok_iff {found : Option FileNode} :
    d.find path = .ok (names, found) ↔ path.isEmpty = false ∧
      ¬ longestPath < Text.byteSize path.toList ∧ Leads d.sight? [] (d.steps path) names ∧
        found = node? d.root names := by
  have hwalk : walk d.root [] (d.steps path) = .ok names ↔
      Leads d.sight? [] (d.steps path) names := walk_eq_ok_iff trivial
  by_cases he : path.isEmpty = true
  · simp only [find, he, if_true]
    exact ⟨nofun, fun h => (Bool.noConfusion h.1)⟩
  · rw [Bool.not_eq_true] at he
    by_cases hl : longestPath < Text.byteSize path.toList
    · simp only [find, he, hl, if_true, if_false, Bool.false_eq_true]
      exact ⟨nofun, fun h => (h.2.1 trivial).elim⟩
    · rw [find_eq he hl]
      constructor
      · intro h
        cases hw : walk d.root [] (d.steps path) with
        | error cause =>
          rw [hw] at h
          cases h
        | ok reached =>
          rw [hw] at h
          cases h
          exact ⟨he, hl, hwalk.mp hw, rfl⟩
      · rintro ⟨_, _, hw, rfl⟩
        rw [hwalk.mpr hw]
        rfl

theorem way?_of_find {found : Option FileNode} (h : d.find path = .ok (names, found)) :
    d.way? path = some names := by
  rw [way?, h]
  rfl

/-- A write looks for what its path names. It is refused at a directory and lost at a device;
otherwise a file stands there afterwards. -/
theorem exists_of_write (h : d.write path text = .ok after) :
    ∃ names found, d.find path = .ok (names, found) ∧ asksForDirectory path = false ∧
      (∀ inner, found ≠ some (.directory inner)) ∧
        (found = some .device ∧ after = d ∨
          found ≠ some .device ∧ after = d.put names (.file text.toUTF8)) := by
  cases hf : d.find path with
  | error cause =>
    rw [write, hf] at h
    cases h
  | ok reached =>
    obtain ⟨names, found⟩ := reached
    refine ⟨names, found, rfl, ?_⟩
    simp only [write, hf, bind, Except.bind] at h
    cases ha : asksForDirectory path with
    | true =>
      simp only [ha, Bool.true_or, if_true] at h
      split at h
      · cases h
      · cases h
      · cases h
      · cases h
    | false =>
      refine ⟨rfl, ?_⟩
      simp only [ha, Bool.false_or, Bool.false_eq_true, if_false] at h
      split at h
      · cases h
      · cases h
      · rename_i node _ hd _
        split at h
        · cases h
          exact ⟨fun _ => nofun, Or.inl ⟨rfl, rfl⟩⟩
        · cases h
          rename_i hne
          exact ⟨fun inner he => hd inner (Option.some.inj he),
            Or.inr ⟨fun he => hne (Option.some.inj he), rfl⟩⟩
      · split at h
        · cases h
        · cases h
          exact ⟨fun _ => nofun, Or.inr ⟨nofun, rfl⟩⟩

/-- Whether a file can be written does not depend on the text. -/
theorem exists_write (h : d.write path text = .ok after) (other : String) :
    ∃ changed, d.write path other = .ok changed := by
  cases hf : d.find path with
  | error cause =>
    rw [write, hf] at h
    cases h
  | ok reached =>
    simp only [write, hf, bind, Except.bind] at h ⊢
    split at h
    · cases h
    · cases h
    · rename_i node _ _ _
      split at h
      · cases h
      · next hasks =>
        simp only [hasks]
        cases node <;> exact ⟨_, rfl⟩
    · split at h
      · cases h
      · next hasks =>
        simp only [hasks]
        exact ⟨_, rfl⟩

/-- The path names a device, which keeps nothing of what is written. -/
def isDevice (d : Directory) (path : String) : Bool :=
  match d.find path with
  | .ok (_, some .device) => true
  | _ => false

theorem exists_directory_of_sight? (h : d.sight? way = some .directory) :
    ∃ inner, node? d.root way = some (.directory inner) := by
  obtain ⟨node, hn, hs⟩ := Option.map_eq_some_iff.mp h
  cases node with
  | directory inner => exact ⟨inner, hn⟩
  | _ => cases hs

theorem sight?_eq_device_iff : d.sight? way = some .device ↔ node? d.root way = some .device := by
  constructor
  · intro h
    obtain ⟨node, hn, hs⟩ := Option.map_eq_some_iff.mp h
    cases node with
    | device => exact hn
    | _ => cases hs
  · intro h
    rw [sight?, sightFrom, h]
    rfl

theorem sight?_ne_device (hd : d.isDevice path = false) (hway : d.way? path = some names) :
    d.sight? names ≠ some .device := by
  intro hs
  cases hf : d.find path with
  | error cause =>
    rw [way?, hf] at hway
    cases hway
  | ok reached =>
    obtain ⟨way, found⟩ := reached
    rw [way?, hf] at hway
    cases hway
    obtain ⟨_, _, _, rfl⟩ := find_eq_ok_iff.mp hf
    rw [isDevice, hf, sight?_eq_device_iff.mp hs] at hd
    cases hd

theorem sight?_eq_file_iff :
    d.sight? way = some (.file content) ↔ node? d.root way = some (.file content) := by
  constructor
  · intro h
    obtain ⟨node, hn, hs⟩ := Option.map_eq_some_iff.mp h
    cases node with
    | file held =>
      cases hs
      exact hn
    | _ => cases hs
  · intro h
    rw [sight?, sightFrom, h]
    rfl

theorem fromUTF8?_toUTF8 (text : String) : String.fromUTF8? text.toUTF8 = some text :=
  dif_pos text.isValidUTF8

theorem steps_put : (d.put names node).steps path = d.steps path := by
  cases names <;> rfl

theorem sight?_put_file (hlead : Leads d.sight? [] more names)
    (hend : d.sight? names ≠ some .directory) :
    (d.put names (.file content)).sight? way =
      if way = names then some (.file content) else d.sight? way := by
  have hway : ∀ front, front <+: names → front ≠ names → d.sight? front = some .directory := by
    intro front hp hne
    refine hlead.directories ?_ hp hne
    intro front hf
    rw [List.reverse_nil, List.prefix_nil] at hf
    subst hf
    rfl
  cases names with
  | nil => exact (hend rfl).elim
  | cons name more => exact sightFrom_place hway hend

/-- A way that leads somewhere without going through what is put at its end leads there still. -/
theorem leads_put_file (hlead : Leads d.sight? [] more names)
    (hend : d.sight? names ≠ some .directory) :
    Leads (d.put names (.file content)).sight? [] more names := by
  refine hlead.congr (fun way hne => ?_) hend ?_
  · rw [sight?_put_file hlead hend, if_neg hne]
  · rw [sight?_put_file hlead hend, if_pos rfl]
    nofun

/-- A write ends at a device, which keeps nothing, or puts a file at the end of the way. -/
theorem exists_end_of_write (h : d.write path text = .ok after) :
    ∃ names, d.find path = .ok (names, node? d.root names) ∧ asksForDirectory path = false ∧
      Leads d.sight? [] (d.steps path) names ∧ d.sight? names ≠ some .directory ∧
        (d.sight? names = some .device ∧ after = d ∨
          d.sight? names ≠ some .device ∧ after = d.put names (.file text.toUTF8)) := by
  obtain ⟨names, found, hf, hasks, hdirectory, hnode⟩ := exists_of_write h
  obtain ⟨_, _, hlead, rfl⟩ := find_eq_ok_iff.mp hf
  refine ⟨names, hf, hasks, hlead, ?_, ?_⟩
  · intro hs
    obtain ⟨inner, hn⟩ := exists_directory_of_sight? hs
    exact hdirectory inner hn
  · exact hnode.imp (And.imp_left sight?_eq_device_iff.mpr)
      (And.imp_left fun hn hs => hn (sight?_eq_device_iff.mp hs))

/-- A write puts a file with the text at the end of the way of its path, or meets a device there and
changes nothing. In every other way the same is seen as before. -/
theorem sight?_write (h : d.write path text = .ok after) :
    ∃ names, d.way? path = some names ∧
      (∀ way, way ≠ names → after.sight? way = d.sight? way) ∧
        (after.sight? names = some (.file text.toUTF8) ∨
          d.sight? names = some .device ∧ after = d) := by
  obtain ⟨names, hf, _, hlead, hend, hnode⟩ := exists_end_of_write h
  refine ⟨names, way?_of_find hf, ?_⟩
  rcases hnode with ⟨hdevice, rfl⟩ | ⟨_, rfl⟩
  · exact ⟨fun _ _ => rfl, Or.inr ⟨hdevice, rfl⟩⟩
  · refine ⟨fun way hne => ?_, Or.inl ?_⟩
    · rw [sight?_put_file hlead hend, if_neg hne]
    · rw [sight?_put_file hlead hend, if_pos rfl]

/-- What was written to a file is read from it. -/
theorem read_write (h : d.write path text = .ok after) (hd : d.isDevice path = false) :
    after.read path = .ok text := by
  obtain ⟨names, hf, hasks, hlead, hend, hnode⟩ := exists_end_of_write h
  rcases hnode with ⟨hdevice, _⟩ | ⟨_, rfl⟩
  · exact (sight?_ne_device hd (way?_of_find hf) hdevice).elim
  · obtain ⟨hempty, hshort, _⟩ := find_eq_ok_iff.mp hf
    have hfile : (d.put names (.file text.toUTF8)).sight? names = some (.file text.toUTF8) := by
      rw [sight?_put_file hlead hend, if_pos rfl]
    have hfind : (d.put names (.file text.toUTF8)).find path =
        .ok (names, some (.file text.toUTF8)) := by
      apply find_eq_ok_iff.mpr
      rw [steps_put]
      exact ⟨hempty, hshort, leads_put_file hlead hend, (sight?_eq_file_iff.mp hfile).symm⟩
    simp only [read, hfind, bind, Except.bind, hasks, Bool.false_eq_true, if_false,
      fromUTF8?_toUTF8]
    rfl

end Directory
end DocTemplate
