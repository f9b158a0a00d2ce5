import CampusQuery.Dataset.Reachable
import CampusQuery.Proofs.Dataset.SeedFiles
import CampusQuery.Proofs.Query.Checks
import Mathlib

/-!
# Loading seed files

A directory is loaded in two phases: all of its seed files are read in the order
of their names, and then their datasets are added one by one. `Store.Loads` says
what the store holds afterwards and what is told, by the first file or dataset
that stops it.
-/

namespace CampusQuery

/-! ## Names in a directory -/

section Names

variable {names : List String} {name : String}

theorem nodup_eraseDups {α : Type} [DecidableEq α] (items : List α) : items.eraseDups.Nodup := by
  cases items with
  | nil => exact List.nodup_nil
  | cons item rest =>
      rw [List.eraseDups_cons, List.nodup_cons]
      exact ⟨by simp, nodup_eraseDups _⟩
termination_by items.length
decreasing_by exact Nat.lt_succ_of_le (List.length_filter_le _ _)

theorem FileTree.nodup_of_list {tree : FileTree} {directory : String}
    (hlist : tree.list directory = .ok names) : names.Nodup := by
  obtain ⟨place, -, hnames⟩ := Query.Answer.bind_eq_ok_iff.1 hlist
  split at hnames
  next =>
    cases hnames
    exact nodup_eraseDups _
  next => exact nomatch hnames
  next => exact nomatch hnames

namespace Dataset

/-- A seed file's name is something before `.json`. -/
theorem isSeedName_iff : isSeedName name = true ↔ ∃ stem, stem ≠ "" ∧ name = stem ++ ".json" := by
  have hends : name.endsWith ".json" = true ↔ ∃ stem, name = stem ++ ".json" := by
    rw [String.endsWith_eq_endsWith_toSlice, String.Slice.endsWith_string_iff,
      String.copy_toSlice]
    constructor
    · rintro ⟨stem, hstem⟩
      exact ⟨String.ofList stem, String.toList_inj.1 (by simpa using hstem.symm)⟩
    · rintro ⟨stem, rfl⟩
      exact ⟨stem.toList, String.toList_append.symm⟩
  rw [isSeedName, Bool.and_eq_true, bne_iff_ne, hends]
  constructor
  · rintro ⟨⟨stem, rfl⟩, hname⟩
    refine ⟨stem, ?_, rfl⟩
    rintro rfl
    exact hname String.empty_append
  · rintro ⟨stem, hstem, rfl⟩
    exact ⟨⟨stem, rfl⟩, fun hname => hstem (String.append_eq_right_iff.1 hname)⟩

theorem mem_seedNames_iff :
    name ∈ seedNames names ↔ name ∈ names ∧ ∃ stem, stem ≠ "" ∧ name = stem ++ ".json" := by
  rw [seedNames, List.mem_mergeSort, List.mem_filter, isSeedName_iff]

theorem pairwise_le_seedNames (names : List String) : (seedNames names).Pairwise (· ≤ ·) := by
  have hsorted := @List.pairwise_mergeSort String (fun a b => decide (a ≤ b))
    (fun a b c hab hbc => decide_eq_true (le_trans (of_decide_eq_true hab) (of_decide_eq_true hbc)))
    (fun a b => by simpa using le_total a b) (names.filter isSeedName)
  exact hsorted.imp of_decide_eq_true

/-- Names that differ are in strict order. -/
theorem pairwise_lt_seedNames (hnodup : names.Nodup) : (seedNames names).Pairwise (· < ·) := by
  have hdistinct : (seedNames names).Nodup :=
    (List.mergeSort_perm _ _).nodup_iff.2 (hnodup.filter _)
  exact ((pairwise_le_seedNames names).and hdistinct).imp fun hab => lt_of_le_of_ne hab.1 hab.2

/-- The order of a listing is lost in the order of its seed files. -/
theorem seedNames_eq_of_perm {other : List String} (hperm : other.Perm names) :
    seedNames other = seedNames names := by
  refine List.Perm.eq_of_pairwise (fun _ _ _ _ => le_antisymm) (pairwise_le_seedNames other)
    (pairwise_le_seedNames names) ?_
  exact (List.mergeSort_perm _ _).trans ((hperm.filter _).trans (List.mergeSort_perm _ _).symm)

end Dataset

end Names

/-! ## Trees in another order -/

/-- A search by a key that no two items share finds the same in any order. -/
theorem find?_eq_of_perm {α β : Type} [DecidableEq β] {key : α → β} {items other : List α}
    (hperm : other.Perm items) (hkeys : (items.map key).Nodup) (wanted : β) :
    (other.find? fun item => key item = wanted) = items.find? fun item => key item = wanted := by
  induction hperm with
  | nil => rfl
  | cons item _ ih => rw [List.find?_cons, List.find?_cons, ih (List.nodup_cons.1 hkeys).2]
  | swap first second rest =>
      simp only [List.find?_cons]
      by_cases hfirst : key first = wanted
      · -- the other item has another key, so it is not found instead
        have hsecond : key second ≠ wanted := by
          rintro rfl
          simp [hfirst] at hkeys
        simp [hfirst, hsecond]
      · simp [hfirst]
  | trans _ hperm ihfirst ihsecond =>
      exact (ihfirst ((hperm.map key).nodup_iff.2 hkeys)).trans (ihsecond hkeys)

namespace FileTree

variable {tree other : FileTree}

theorem node?_eq_of_perm (hperm : other.nodes.Perm tree.nodes)
    (hplaces : (tree.nodes.map Prod.fst).Nodup) (place : Place) :
    other.node? place = tree.node? place := by
  have hchildren : other.hasChildren place = tree.hasChildren place := hperm.any_eq
  rw [node?, node?, find?_eq_of_perm hperm hplaces, hchildren]

/-- What is read depends on what stands at each place, and on no order. -/
theorem read_eq_of_perm (hperm : other.nodes.Perm tree.nodes)
    (hplaces : (tree.nodes.map Prod.fst).Nodup)
    (hdirectory : other.workingDirectory = tree.workingDirectory) (path : String) :
    other.read path = tree.read path := by
  have hnode := node?_eq_of_perm hperm hplaces
  have henter : other.enter = tree.enter := by
    funext place name
    rw [enter, enter, hnode]
  have hlocate : other.locate path = tree.locate path := by
    rw [locate, locate, henter, start, start, hdirectory]
  simp only [read, hlocate, hnode]

end FileTree

/-! ## Paths -/

open String in
/-- `done` is what was split off before, and `l` what it was split off from; `m` has been passed
since the last slash. -/
theorem splitOnAux_slash (l m r : List Char) (done : List String) :
    splitOnAux (ofList (l ++ m ++ r)) "/" ⟨utf8Len l⟩ ⟨utf8Len l + utf8Len m⟩ 0 done =
      done.reverse ++ (List.splitOnPPrepend (· == '/') r m.reverse).map ofList := by
  have hget : Pos.Raw.get "/" 0 = '/' := by decide +kernel
  have hnext : Pos.Raw.next "/" 0 = ⟨1⟩ := by decide +kernel
  have hend : Pos.Raw.atEnd "/" ⟨1⟩ = true := by decide +kernel
  have hstart (i : Pos.Raw) : i.unoffsetBy 0 = i := by simp [Pos.Raw.unoffsetBy]
  induction r generalizing l m done with
  | nil =>
      have hatEnd := atEnd_of_valid (l ++ m) []
      have hextract := extract_of_valid l m []
      simp only [utf8Len_append, List.append_nil, iff_true] at hatEnd hextract
      rw [splitOnAux, List.append_nil, if_pos hatEnd, hextract]
      simp
  | cons c r ih =>
      have hget' := get_of_valid (l ++ m) (c :: r)
      have hnext' := next_of_valid (l ++ m) c r
      have hextract := extract_of_valid l m (c :: r)
      have hatEnd := atEnd_of_valid (l ++ m) (c :: r)
      simp only [utf8Len_append, List.headD_cons] at hget' hnext' hatEnd
      rw [splitOnAux, if_neg (by rw [hatEnd]; simp)]
      simp only [hget, hnext, hend, hstart, hget', hnext', if_true]
      by_cases hslash : c = '/'
      · subst hslash
        have hback : Pos.Raw.unoffsetBy ⟨utf8Len l + utf8Len m + '/'.utf8Size⟩ ⟨1⟩ =
            ⟨utf8Len l + utf8Len m⟩ := rfl
        have hrest := ih (l ++ m ++ ['/']) [] (ofList m :: done)
        simp only [utf8Len_append, utf8Len_cons, utf8Len_nil, List.append_nil, Nat.add_zero,
          Nat.zero_add, List.append_assoc (l ++ m), List.singleton_append] at hrest
        rw [if_pos BEq.rfl, hback, hextract, hrest]
        simp [List.splitOnPPrepend_cons_eq_if]
      · have hrest := ih l (m ++ [c]) done
        simp only [utf8Len_append, utf8Len_cons, utf8Len_nil, List.append_assoc,
          List.singleton_append, Nat.zero_add] at hrest ⊢
        simp only [beq_iff_eq, hslash, if_false, Nat.add_assoc] at hrest ⊢
        rw [hrest]
        simp [List.splitOnPPrepend_cons_eq_if, hslash]

theorem splitOn_slash (path : String) :
    path.splitOn "/" = (path.toList.splitOn '/').map String.ofList := by
  simpa [String.splitOn, List.splitOn] using splitOnAux_slash [] [] path.toList []

/-! ## Reading a seed file -/

namespace Dataset

/-- What a seed file gives: the dataset of its records, or the reason why there is none. -/
inductive FileGives (tree : FileTree) (path : String) : Except DatasetError Dataset → Prop where
  | unreadable {fault : FileFault} (hread : tree.read path = .error fault) :
      FileGives tree path (.error (.unreadable path fault.message))
  | unparsable {text : String} (hread : tree.read path = .ok text)
      (hseed : ∀ seed : SeedFile, ¬ seed.WrittenIn text) :
      FileGives tree path (.error (.unparsable path "not a seed file"))
  | parsed {text : String} {seed : SeedFile} (hread : tree.read path = .ok text)
      (hseed : seed.WrittenIn text) :
      FileGives tree path (ofJson seed.id seed.kind seed.records)

theorem fileGives_readFile (tree : FileTree) (path : String) :
    FileGives tree path (readFile tree path) := by
  unfold readFile
  split
  next hread => exact .unreadable hread
  next hread =>
    split
    next hseed =>
      refine .unparsable hread fun seed hwritten => ?_
      cases hseed.symm.trans (SeedFile.read?_eq_some_iff.2 hwritten)
    next hseed => exact .parsed hread (SeedFile.read?_eq_some_iff.1 hseed)

theorem fileGives_iff {tree : FileTree} {path : String} {answer : Except DatasetError Dataset} :
    FileGives tree path answer ↔ readFile tree path = answer := by
  constructor
  · intro hgives
    unfold readFile
    cases hgives with
    | unreadable hread => rw [hread]
    | unparsable hread hseed =>
        have hnone : SeedFile.read? _ = none := Option.eq_none_iff_forall_ne_some.2
          fun seed hsome => hseed seed (SeedFile.read?_eq_some_iff.1 hsome)
        simp only [hread, hnone]
    | parsed hread hseed => simp only [hread, SeedFile.read?_eq_some_iff.2 hseed]
  · rintro rfl
    exact fileGives_readFile tree path

/-- What is read and decoded from a file is given by it. -/
theorem fileGives_of_read {tree : FileTree} {path text : String} {dataset : Dataset}
    (hread : tree.read path = .ok text)
    (hseed : (SeedFile.read? text).map (fun seed => ofJson seed.id seed.kind seed.records) =
      some (.ok dataset)) : FileGives tree path (.ok dataset) := by
  obtain ⟨seed, hseed, hdataset⟩ := Option.map_eq_some_iff.1 hseed
  exact hdataset ▸ .parsed hread (SeedFile.read?_eq_some_iff.1 hseed)

end Dataset

namespace Store

/-! ## Adding one by one -/

/-- A dataset is refused beside these ids: its own is one of them, or else it holds no records. -/
inductive Refuses (ids : List String) (dataset : Dataset) : DatasetError → Prop where
  | taken (hid : dataset.id ∈ ids) : Refuses ids dataset (.alreadyExists dataset.id)
  | empty (hid : dataset.id ∉ ids) (hrecords : dataset.records = []) :
      Refuses ids dataset (.empty dataset.id)

/-- Datasets that a store takes one after another: all of them hold records, and no id is used
twice, by them or by the store. -/
structure Takes (store : Store) (datasets : List Dataset) : Prop where
  filled : ∀ dataset ∈ datasets, dataset.records ≠ []
  distinct_ids : (store.ids ++ datasets.map Dataset.id).Nodup

variable {store next : Store} {dataset : Dataset} {datasets : List Dataset}
  {error : DatasetError}

theorem refuses_iff : Refuses store.ids dataset error ↔ store.add dataset = .error error := by
  rw [add_eq_error_iff]
  constructor
  · intro hrefused
    cases hrefused with
    | taken hid => exact .inl ⟨hid, rfl⟩
    | empty hid hrecords => exact .inr ⟨hid, hrecords, rfl⟩
  · rintro (⟨hid, rfl⟩ | ⟨hid, hrecords, rfl⟩)
    · exact .taken hid
    · exact .empty hid hrecords

theorem takes_nil_iff : store.Takes [] ↔ store.ids.Nodup := by
  constructor
  · intro htakes
    simpa using htakes.distinct_ids
  · intro hnodup
    exact ⟨nofun, by simpa using hnodup⟩

/-- A store takes datasets if it takes the first, and then the others. -/
theorem takes_cons_iff : store.Takes (dataset :: datasets) ↔
    ∃ next, store.add dataset = .ok next ∧ next.Takes datasets := by
  constructor
  · intro htakes
    obtain ⟨hfirst, hrest⟩ := List.forall_mem_cons.1 htakes.filled
    have hids := htakes.distinct_ids
    have hnew : dataset.id ∉ store.ids := fun hmem =>
      (List.nodup_append.1 hids).2.2 _ hmem _ List.mem_cons_self rfl
    have hadd := add_eq_ok_iff.2 ⟨hnew, hfirst, rfl⟩
    refine ⟨_, hadd, hrest, ?_⟩
    rw [ids_add hadd]
    simpa using hids
  · rintro ⟨next, hadd, htakes⟩
    obtain ⟨-, hfirst, -⟩ := add_eq_ok_iff.1 hadd
    have hids := htakes.distinct_ids
    rw [ids_add hadd] at hids
    exact ⟨List.forall_mem_cons.2 ⟨hfirst, htakes.filled⟩, by simpa using hids⟩

theorem ids_append (before : List Dataset) :
    Store.ids ⟨store.datasets ++ before⟩ = store.ids ++ before.map Dataset.id := by
  simp [ids]

/-- Datasets that a store takes are added, and then the rest is tried. -/
theorem addAll_append {before : List Dataset} (htakes : store.Takes before) (rest : List Dataset) :
    store.addAll (before ++ rest) = Store.addAll ⟨store.datasets ++ before⟩ rest := by
  induction before generalizing store with
  | nil => simp
  | cons dataset before ih =>
      obtain ⟨next, hadd, hnext⟩ := takes_cons_iff.1 htakes
      obtain ⟨-, -, rfl⟩ := add_eq_ok_iff.1 hadd
      rw [List.cons_append, addAll, hadd]
      simpa using ih hnext

theorem addAll_of_takes (htakes : store.Takes datasets) :
    store.addAll datasets = (⟨store.datasets ++ datasets⟩, none) := by
  simpa [addAll] using addAll_append htakes []

theorem addAll_of_refuses {before : List Dataset} (htakes : store.Takes before)
    (hrefuses : Refuses (store.ids ++ before.map Dataset.id) dataset error)
    (after : List Dataset) :
    store.addAll (before ++ dataset :: after) = (⟨store.datasets ++ before⟩, some error) := by
  rw [← ids_append, refuses_iff] at hrefuses
  rw [addAll_append htakes, addAll, hrefuses]

/-- A store takes all datasets, or those before the first that is refused. -/
theorem takes_or_refuses (hids : store.ids.Nodup) (datasets : List Dataset) :
    store.Takes datasets ∨ ∃ before dataset after error,
      datasets = before ++ dataset :: after ∧ store.Takes before ∧
        Refuses (store.ids ++ before.map Dataset.id) dataset error := by
  induction datasets generalizing store with
  | nil => exact .inl (takes_nil_iff.2 hids)
  | cons first rest ih =>
      cases hadd : store.add first with
      | error error =>
          refine .inr ⟨[], first, rest, error, rfl, takes_nil_iff.2 hids, ?_⟩
          simpa using refuses_iff.2 hadd
      | ok next =>
          obtain ⟨hnew, -, -⟩ := add_eq_ok_iff.1 hadd
          have hnext : next.ids.Nodup := by
            rw [ids_add hadd]
            exact List.nodup_append_comm.1 (List.nodup_cons.2 ⟨hnew, hids⟩)
          rcases ih hnext with htakes | ⟨before, dataset, after, error, rfl, htakes, hrefuses⟩
          · exact .inl (takes_cons_iff.2 ⟨next, hadd, htakes⟩)
          · refine .inr ⟨first :: before, dataset, after, error, rfl,
              takes_cons_iff.2 ⟨next, hadd, htakes⟩, ?_⟩
            rw [ids_add hadd] at hrefuses
            simpa using hrefuses

/-! ## Reading, then adding -/

/-- What comes of loading seed files in order: the store afterwards, and how many datasets were
added or why not all were. -/
inductive Loads (store : Store) (tree : FileTree) (paths : List String) :
    Store × Except DatasetError Nat → Prop where
  | faulty {before after : List String} {path : String} {error : DatasetError}
      (hpaths : paths = before ++ path :: after)
      (hbefore : ∀ other ∈ before, ∃ dataset, Dataset.FileGives tree other (.ok dataset))
      (hfault : Dataset.FileGives tree path (.error error)) :
      Loads store tree paths (store, .error error)
  | refused {before after : List Dataset} {dataset : Dataset} {error : DatasetError}
      (hread : List.Forall₂ (fun path dataset => Dataset.FileGives tree path (.ok dataset)) paths
        (before ++ dataset :: after))
      (htakes : store.Takes before)
      (hrefuses : Refuses (store.ids ++ before.map Dataset.id) dataset error) :
      Loads store tree paths (⟨store.datasets ++ before⟩, .error error)
  | all {datasets : List Dataset}
      (hread : List.Forall₂ (fun path dataset => Dataset.FileGives tree path (.ok dataset)) paths
        datasets)
      (htakes : store.Takes datasets) :
      Loads store tree paths (⟨store.datasets ++ datasets⟩, .ok paths.length)

variable {tree : FileTree} {directory : String} {names : List String}
  {outcome : Store × Except DatasetError Nat}

theorem Loads.eq_loadDirectory (hlist : tree.list directory = .ok names)
    (hloads : store.Loads tree ((Dataset.seedNames names).map (FileTree.join directory)) outcome) :
    store.loadDirectory tree directory = outcome := by
  have hreads : Dataset.readDirectory tree directory =
      ((Dataset.seedNames names).map (FileTree.join directory)).mapM (Dataset.readFile tree) := by
    rw [Dataset.readDirectory, hlist]
  unfold loadDirectory
  cases hloads with
  | faulty hpaths hbefore hfault =>
      simp only [Dataset.fileGives_iff] at hbefore hfault
      rw [hreads, Query.Answer.mapM_eq_error_iff.2 ⟨_, _, _, hpaths, hbefore, hfault⟩]
  | refused hread htakes hrefuses =>
      simp only [Dataset.fileGives_iff] at hread
      rw [hreads, Query.Answer.mapM_eq_ok_iff.2 hread]
      simp only [addAll_of_refuses htakes hrefuses]
  | all hread htakes =>
      have hlength := hread.length_eq
      simp only [Dataset.fileGives_iff] at hread
      rw [hreads, Query.Answer.mapM_eq_ok_iff.2 hread]
      simp only [addAll_of_takes htakes, hlength]

/-- Something comes of loading any files. -/
theorem exists_loads (hids : store.ids.Nodup) (tree : FileTree) (paths : List String) :
    ∃ outcome, store.Loads tree paths outcome := by
  cases hread : paths.mapM (Dataset.readFile tree) with
  | error error =>
      obtain ⟨before, path, after, hpaths, hbefore, hfault⟩ :=
        Query.Answer.mapM_eq_error_iff.1 hread
      simp only [← Dataset.fileGives_iff] at hbefore hfault
      exact ⟨_, .faulty hpaths hbefore hfault⟩
  | ok datasets =>
      have hall := Query.Answer.mapM_eq_ok_iff.1 hread
      simp only [← Dataset.fileGives_iff] at hall
      rcases takes_or_refuses hids datasets with
        htakes | ⟨before, dataset, after, error, rfl, htakes, hrefuses⟩
      · exact ⟨_, .all hall htakes⟩
      · exact ⟨_, .refused hall htakes hrefuses⟩

/-- Directories that list the same names and hold the same seed files are loaded alike. -/
theorem loadDirectory_congr {other : FileTree} {listed : List String}
    (hlist : tree.list directory = .ok names) (hother : other.list directory = .ok listed)
    (hperm : listed.Perm names)
    (hread : ∀ name ∈ Dataset.seedNames names,
      other.read (FileTree.join directory name) = tree.read (FileTree.join directory name)) :
    store.loadDirectory other directory = store.loadDirectory tree directory := by
  have hsame : Dataset.readDirectory other directory = Dataset.readDirectory tree directory := by
    rw [Dataset.readDirectory, Dataset.readDirectory, hlist, hother]
    simp only [Dataset.seedNames_eq_of_perm hperm]
    refine Query.Answer.mapM_congr fun path hpath => ?_
    obtain ⟨name, hname, rfl⟩ := List.mem_map.1 hpath
    rw [Dataset.readFile, Dataset.readFile, hread name hname]
  rw [loadDirectory, loadDirectory, hsame]

/-- Loading a directory considers the files named `.json` in strict order of their names, however
the directory lists them, and does what `Loads` says of them. -/
theorem directories_load_in_name_order (hstore : store.Reachable)
    (hlist : tree.list directory = .ok names) :
    ∃ files : List String, files.Pairwise (· < ·) ∧
      (∀ name, name ∈ files ↔ name ∈ names ∧ ∃ stem, stem ≠ "" ∧ name = stem ++ ".json") ∧
      (∀ outcome, store.loadDirectory tree directory = outcome ↔
        store.Loads tree (files.map (FileTree.join directory)) outcome) ∧
      ∀ (other : FileTree) (listed : List String), other.list directory = .ok listed →
        listed.Perm names →
        (∀ name ∈ files,
          other.read (FileTree.join directory name) = tree.read (FileTree.join directory name)) →
        store.loadDirectory other directory = store.loadDirectory tree directory := by
  refine ⟨Dataset.seedNames names, Dataset.pairwise_lt_seedNames (FileTree.nodup_of_list hlist),
    fun _ => Dataset.mem_seedNames_iff, fun outcome => ⟨?_, Loads.eq_loadDirectory hlist⟩,
    fun _ _ hother hperm hread => loadDirectory_congr hlist hother hperm hread⟩
  rintro rfl
  -- some outcome comes of the files, and no other than that of the loading
  obtain ⟨found, hfound⟩ := exists_loads hstore.wellFormed.distinct_ids tree
    ((Dataset.seedNames names).map (FileTree.join directory))
  rwa [hfound.eq_loadDirectory hlist]

/-- A dataset of one section. -/
def introIn (id : String) : Dataset where
  id := id
  kind := .sections
  records := [.section {
    uuid := "1", id := "110", title := "intro", instructor := "ada", dept := "cpsc"
    year := .ofNat 2015, avg := .ofNat 90, pass := .ofNat 10, fail := .ofNat 1, audit := .ofNat 0 }]

theorem reachable_introIn_labs : Store.Reachable ⟨[introIn "labs"]⟩ := by
  have hcreate : Dataset.create "labs" .sections (introIn "labs").records =
      .ok (introIn "labs") := by decide +kernel
  exact .add .empty hcreate (by decide +kernel)

/-- A seed file in the object form, with a key that no part has. -/
def coursesText : String :=
  "\x7b \"records\": [[\"1\",\"110\",\"intro\",\"ada\",\"cpsc\",2015,90,10,1,0]], " ++
    "\"kind\": \"sections\", \"term\": 2, \"id\": \"courses\"\x7d"

/-- A seed file in the array form. -/
def labsText : String :=
  "[\"labs\", \x7b\"sections\": null\x7d, [[\"1\",\"110\",\"intro\",\"ada\",\"cpsc\",2015,90,10,1,0]]]"

/-- Two files with names of seed files, listed against their order, and a note between them. -/
def seedsAndNote (first second : String) : FileTree where
  nodes := [(["b.json"], .file second), (["notes"], .file "none"), (["a.json"], .file first)]

def seedsAndNoteBackwards (first second : String) : FileTree where
  nodes := (seedsAndNote first second).nodes.reverse

theorem list_seedsAndNote (first second : String) :
    (seedsAndNote first second).list "." = .ok ["b.json", "notes", "a.json"] := by cbv

theorem list_seedsAndNoteBackwards (first second : String) :
    (seedsAndNoteBackwards first second).list "." = .ok ["a.json", "notes", "b.json"] := by cbv

theorem read_seedsAndNote (first second : String) :
    (seedsAndNote first second).read "./a.json" = .ok first ∧
      (seedsAndNote first second).read "./b.json" = .ok second := by
  have hfirst : "./a.json".splitOn "/" = [".", "a.json"] := by
    rw [splitOn_slash]
    decide +kernel
  have hsecond : "./b.json".splitOn "/" = [".", "b.json"] := by
    rw [splitOn_slash]
    decide +kernel
  rw [FileTree.read, FileTree.locate, hfirst, FileTree.read, FileTree.locate, hsecond]
  constructor
  · cbv
  · cbv

/-- Beside labs, the courses of the first file are added and the labs of the second are refused.
Listing the files backwards changes nothing. -/
theorem seeds_load_as_backwards :
    Store.Reachable ⟨[introIn "labs"]⟩ ∧
      (seedsAndNote coursesText labsText).list "." = .ok ["b.json", "notes", "a.json"] ∧
      Store.Loads ⟨[introIn "labs"]⟩ (seedsAndNote coursesText labsText) ["./a.json", "./b.json"]
        (⟨[introIn "labs", introIn "courses"]⟩, .error (.alreadyExists "labs")) ∧
      Store.loadDirectory ⟨[introIn "labs"]⟩ (seedsAndNoteBackwards coursesText labsText) "." =
        (⟨[introIn "labs", introIn "courses"]⟩, .error (.alreadyExists "labs")) := by
  obtain ⟨files, hsorted, hmem, hloads, hother⟩ :=
    directories_load_in_name_order reachable_introIn_labs (list_seedsAndNote coursesText labsText)
  have hfiles : files = ["a.json", "b.json"] := by
    have hseeds : ["b.json", "notes", "a.json"].filter Dataset.isSeedName =
        ["b.json", "a.json"] := by cbv
    refine List.Perm.eq_of_pairwise (fun _ _ _ _ hab hba => absurd hba hab.not_gt) hsorted
      (by decide) ?_
    rw [List.perm_ext_iff_of_nodup (hsorted.imp ne_of_lt) (by decide)]
    intro name
    rw [hmem, ← Dataset.isSeedName_iff, ← List.mem_filter, hseeds]
    exact (List.Perm.swap _ _ _).mem_iff
  have hpaths : files.map (FileTree.join ".") = ["./a.json", "./b.json"] := by
    rw [hfiles]
    cbv
  obtain ⟨hfirst, hsecond⟩ := read_seedsAndNote coursesText labsText
  have hread : List.Forall₂
      (fun path dataset =>
        Dataset.FileGives (seedsAndNote coursesText labsText) path (.ok dataset))
      ["./a.json", "./b.json"] ([introIn "courses"] ++ introIn "labs" :: []) :=
    .cons (Dataset.fileGives_of_read hfirst (by decide +kernel))
      (.cons (Dataset.fileGives_of_read hsecond (by decide +kernel)) .nil)
  have houtcome : Store.Loads ⟨[introIn "labs"]⟩ (seedsAndNote coursesText labsText)
      ["./a.json", "./b.json"]
      (⟨[introIn "labs", introIn "courses"]⟩, .error (.alreadyExists "labs")) :=
    .refused hread ⟨by decide, by decide⟩ (.taken (by decide))
  have hsame : ∀ path, (seedsAndNoteBackwards coursesText labsText).read path =
      (seedsAndNote coursesText labsText).read path :=
    FileTree.read_eq_of_perm (List.reverse_perm (seedsAndNote coursesText labsText).nodes)
      (by decide) rfl
  have hbackwards := hother _ _ (list_seedsAndNoteBackwards coursesText labsText) (by decide)
    fun _ _ => hsame _
  exact ⟨reachable_introIn_labs, list_seedsAndNote _ _, houtcome,
    hbackwards.trans ((hloads _).2 (hpaths ▸ houtcome))⟩

end Store

end CampusQuery
