import HAtom.Discovery
import HAtom.Proofs.FilesBelow

/-!
# What a search for documents finds

A search that does not follow links finds the files to which names lead through directories, as deep
as it may go and as far as their paths fit. An entry that the system does not look at, because its
path is too long, is left out and keeps nothing else from being found.

* `Discovery.IsSought`: what is to be found below a directory.
* `Discovery.mem_seen` and `Discovery.nodup_seen`: a search finds that, and each file once.
* `Discovery.documents_answers`: what is found at the end of a path or below it, and in which order.
-/

namespace HAtom.Discovery

variable {d : Discovery} {path : String}

/-! ## Specification -/

/-- A search is to find what names lead to: a file, of a path that fits, with no more directories on
the way than the search may go down. -/
structure IsSought (d : Discovery) (path : String) (entries : Directory) (names : List String) :
    Prop where
  file : ∃ content, entries.Leads names (.file content)
  depth : ∀ bound ∈ d.maxDepth, names.dropLast.length ≤ bound
  accepted : d.accepts (PathText.below path names) = true

/-- The system looks at everything below a directory: no path to it is too long. -/
def InReach (path : String) (entries : Directory) : Prop :=
  ∀ names e, entries.Leads names e → FileTree.isTooLong (PathText.below path names) = false

/-- Paths are those of all that is to be found below a directory, each of them once, in the order of
their components. -/
structure Lists (d : Discovery) (path : String) (entries : Directory) (paths : List String) :
    Prop where
  mem_iff : ∀ p, p ∈ paths ↔ ∃ names, d.IsSought path entries names ∧ PathText.below path names = p
  once : paths.Nodup
  ordered : paths.Pairwise fun p q => PathText.components p < PathText.components q

/-- What a search answers about a path. -/
structure Answers (d : Discovery) (files : FileTree) (path : String) : Prop where
  /-- Below a directory, everything that is to be found. -/
  directory : ∀ entries, files.look path = .ok (.directory entries) → InReach path entries →
    ∃ paths errors, d.documents files path = .ok (paths, errors) ∧ d.Lists path entries paths
  /-- A file itself, if its path fits. -/
  file : ∀ content, files.look path = .ok (.file content) →
    d.documents files path = .ok (if d.accepts path then [path] else [], 0)
  /-- Nothing else can be searched. -/
  other : ∀ e, files.look path = .ok e → (∀ content, e ≠ .file content) →
    (∀ entries, e ≠ .directory entries) →
      d.documents files path = .error (.traversal path "neither a file nor a directory")
  missing : ∀ fault, files.look path = .error fault → d.documents files path = .error (.io fault)

/-! ## Searches that pass over links -/

/-- The documents that a search finds in a directory when it passes over links. -/
def seen (d : Discovery) (path : String) (entries : Directory) (names : List String)
    (depth : Nat) : List (List String) :=
  (searchAll d path (fun _ _ => .none) entries names depth).documents

/-- The documents that it finds in one entry. -/
def seenIn (d : Discovery) (path : String) (e : Entry) (names : List String) (depth : Nat) :
    List (List String) :=
  if FileTree.isTooLong (PathText.below path names) then []
  else (search d path (fun _ _ => .none) e names depth).documents

theorem seen_nil {names : List String} {depth : Nat} : seen d path [] names depth = [] := by
  rw [seen, searchAll]
  rfl

theorem seen_cons {name : String} {e : Entry} {rest : Directory} {names : List String}
    {depth : Nat} : seen d path ((name, e) :: rest) names depth =
      seenIn d path e (names ++ [name]) depth ++ seen d path rest names depth := by
  rw [seen, searchAll, Found.and, seenIn]
  split <;> rfl

theorem mem_seenIn_file {content : Except IoFault (List UInt8)} {names doc : List String}
    {depth : Nat} : doc ∈ seenIn d path (.file content) names depth ↔
      doc = names ∧ d.accepts (PathText.below path names) = true ∧
        FileTree.isTooLong (PathText.below path names) = false := by
  rw [seenIn, search]
  by_cases hlong : FileTree.isTooLong (PathText.below path names) = true
  · simp [hlong]
  · by_cases haccepted : d.accepts (PathText.below path names) = true
    · simp [hlong, haccepted]
    · simp [hlong, haccepted, Found.none]

theorem seenIn_directory {inner : Directory} {names : List String} {depth : Nat} :
    seenIn d path (.directory inner) names depth =
      if FileTree.isTooLong (PathText.below path names) = false ∧ d.goesBelow depth = true then
        seen d path inner names (depth + 1)
      else [] := by
  rw [seenIn, search]
  by_cases hlong : FileTree.isTooLong (PathText.below path names) = true
  · simp [hlong]
  · by_cases hgoes : d.goesBelow depth = true
    · rw [if_neg hlong, if_pos hgoes, if_pos ⟨by simpa using hlong, hgoes⟩]
      rfl
    · simp [hlong, hgoes, Found.none]

theorem seenIn_link {target : String} {names : List String} {depth : Nat} :
    seenIn d path (.link target) names depth = [] := by
  rw [seenIn, search]
  split <;> rfl

theorem seenIn_device {names : List String} {depth : Nat} :
    seenIn d path .device names depth = [] := by
  rw [seenIn, search]
  split <;> rfl

theorem isTooLong_of_below {names more : List String}
    (h : FileTree.isTooLong (PathText.below path (names ++ more)) = false) :
    FileTree.isTooLong (PathText.below path names) = false := by
  have hle := PathText.size_le_below (PathText.below path names) more
  rw [PathText.below_append] at h
  simp only [FileTree.isTooLong, decide_eq_false_iff_not] at h ⊢
  omega

theorem goesBelow_iff {depth : Nat} :
    d.goesBelow depth = true ↔ ∀ bound ∈ d.maxDepth, depth < bound := by
  rw [goesBelow]
  cases d.maxDepth <;> simp

/-- **What a search finds** below a directory that it entered at some depth: the files to which names
lead from there. -/
theorem mem_seen {entries : Directory} (h : entries.IsProper) {names doc : List String}
    {depth : Nat} (hdepth : ∀ bound ∈ d.maxDepth, depth ≤ bound) :
    doc ∈ seen d path entries names depth ↔
      ∃ more, doc = names ++ more ∧ (∃ content, entries.Leads more (.file content)) ∧
        (∀ bound ∈ d.maxDepth, depth + more.dropLast.length ≤ bound) ∧
        d.accepts (PathText.below path doc) = true ∧
        FileTree.isTooLong (PathText.below path doc) = false := by
  induction h generalizing names depth doc with
  | nil => simp [seen_nil, Directory.leads_nil]
  | @cons name e rest _ _ _ _ ihinner ihrest =>
    rw [seen_cons, List.mem_append]
    constructor
    · rintro (hdoc | hdoc)
      · cases e with
        | file content =>
          obtain ⟨rfl, hfits⟩ := mem_seenIn_file.1 hdoc
          exact ⟨[name], rfl, ⟨content, .entry List.mem_cons_self⟩, hdepth, hfits⟩
        | directory inner =>
          rw [seenIn_directory] at hdoc
          split at hdoc
          · next hgoes =>
            obtain ⟨more, rfl, ⟨content, hleads⟩, hmore, hfits⟩ :=
              (ihinner inner rfl (goesBelow_iff.1 hgoes.2)).1 hdoc
            refine ⟨name :: more, by simp, ⟨content, .inside List.mem_cons_self hleads⟩, ?_, hfits⟩
            intro bound hbound
            have := hmore bound hbound
            rw [hleads.length_dropLast]
            omega
          · simp at hdoc
        | link target => simp [seenIn_link] at hdoc
        | device => simp [seenIn_device] at hdoc
      · obtain ⟨more, rfl, ⟨content, hleads⟩, hrest⟩ := (ihrest hdepth).1 hdoc
        exact ⟨more, rfl, ⟨content, Directory.leads_cons.2 (.inr (.inr hleads))⟩, hrest⟩
    · rintro ⟨more, rfl, ⟨content, hleads⟩, hmore, haccepted, hshort⟩
      rcases Directory.leads_cons.1 hleads with ⟨rfl, rfl⟩ | ⟨inner, more, rfl, rfl, hinner⟩ | hrest
      · exact .inl (mem_seenIn_file.2 ⟨rfl, haccepted, hshort⟩)
      · rw [List.append_cons names name more] at haccepted hshort ⊢
        have hgoes : ∀ bound ∈ d.maxDepth, depth + 1 + more.dropLast.length ≤ bound := by
          intro bound hbound
          have := hmore bound hbound
          rw [hinner.length_dropLast] at this
          omega
        have hnext : ∀ bound ∈ d.maxDepth, depth + 1 ≤ bound := by
          intro bound hbound
          have := hgoes bound hbound
          omega
        rw [seenIn_directory, if_pos ⟨isTooLong_of_below hshort, goesBelow_iff.2 hnext⟩]
        exact .inl ((ihinner inner rfl hnext).2
          ⟨more, rfl, ⟨content, hinner⟩, hgoes, haccepted, hshort⟩)
      · exact .inr ((ihrest hdepth).2 ⟨more, rfl, ⟨content, hrest⟩, hmore, haccepted, hshort⟩)

/-- **A search finds each file once.** -/
theorem nodup_seen {entries : Directory} (h : entries.IsProper) {names : List String} {depth : Nat}
    (hdepth : ∀ bound ∈ d.maxDepth, depth ≤ bound) : (seen d path entries names depth).Nodup := by
  induction h generalizing names depth with
  | nil => simp [seen_nil]
  | @cons name e rest hname hnew hinner hrest ihinner ihrest =>
    rw [seen_cons, List.nodup_append]
    refine ⟨?_, ihrest hdepth, ?_⟩
    · cases e with
      | file content =>
        rw [seenIn, search]
        split_ifs <;> simp [Found.none]
      | directory inner =>
        rw [seenIn_directory]
        split_ifs with hgoes
        · exact ihinner inner rfl (goesBelow_iff.1 hgoes.2)
        · exact List.nodup_nil
      | link target => simp [seenIn_link]
      | device => simp [seenIn_device]
    · -- what is found in the first entry begins with its name, which no other entry has
      rintro doc hfirst _ hothers rfl
      have hsingle : Directory.IsProper [(name, e)] := .cons hname (by simp) hinner .nil
      have hdoc : doc ∈ seen d path [(name, e)] names depth := by
        rw [seen_cons]
        exact List.mem_append_left _ hfirst
      obtain ⟨more, rfl, ⟨_, hmore⟩, -⟩ := (mem_seen hsingle hdepth).1 hdoc
      obtain ⟨more', heq, ⟨_, hmore'⟩, -⟩ := (mem_seen hrest hdepth).1 hothers
      obtain rfl := List.append_cancel_left heq
      obtain ⟨first, _, rfl, hfirst'⟩ := hmore.head
      obtain ⟨_, _, heq', hothers'⟩ := hmore'.head
      obtain ⟨rfl, -⟩ := List.cons.inj heq'
      obtain rfl : first = name := by simpa using hfirst'
      exact hnew hothers'

/-! ## Documents below a directory -/

theorem mem_seen_iff_isSought {entries : Directory} (h : entries.IsProper)
    (hreach : InReach path entries) {names : List String} :
    names ∈ seen d path entries [] 0 ↔ d.IsSought path entries names := by
  rw [mem_seen h (by simp)]
  constructor
  · rintro ⟨more, rfl, hfile, hdepth, haccepted, -⟩
    exact ⟨hfile, by simpa using hdepth, haccepted⟩
  · rintro ⟨⟨content, hleads⟩, hdepth, haccepted⟩
    exact ⟨names, rfl, ⟨content, hleads⟩, by simpa using hdepth, haccepted, hreach _ _ hleads⟩

/-- The documents below a directory in the order of their names. -/
theorem pairwise_sorted {documents : List (List String)} (h : documents.Nodup) :
    (documents.mergeSort PathText.namesLe).Pairwise (· < ·) := by
  have htrans : ∀ a b c, PathText.namesLe a b = true → PathText.namesLe b c = true →
      PathText.namesLe a c = true := by
    intro a b c hab hbc
    rw [PathText.namesLe_iff] at hab hbc ⊢
    exact le_trans hab hbc
  have htotal : ∀ a b, (PathText.namesLe a b || PathText.namesLe b a) = true := by
    intro a b
    simpa only [Bool.or_eq_true, PathText.namesLe_iff] using le_total a b
  have hsorted := List.pairwise_mergeSort htrans htotal documents
  have hdistinct : (documents.mergeSort PathText.namesLe).Nodup :=
    (List.mergeSort_perm _ _).nodup_iff.2 h
  refine (hsorted.and hdistinct).imp ?_
  rintro a b ⟨hle, hne⟩
  exact lt_of_le_of_ne (PathText.namesLe_iff.1 hle) hne

theorem lists_paths {entries : Directory} (h : entries.IsProper) (hreach : InReach path entries) :
    d.Lists path entries (paths path (searchAll d path (fun _ _ => .none) entries [] 0)) := by
  have hmem : ∀ names, names ∈ (seen d path entries [] 0).mergeSort PathText.namesLe ↔
      d.IsSought path entries names := by
    intro names
    rw [List.mem_mergeSort, mem_seen_iff_isSought h hreach]
  have hordered : (paths path (searchAll d path (fun _ _ => .none) entries [] 0)).Pairwise
      fun p q => PathText.components p < PathText.components q := by
    rw [paths, List.pairwise_map]
    refine (pairwise_sorted (nodup_seen h (by simp))).imp_of_mem ?_
    intro a b ha hb hlt
    obtain ⟨_, hleads⟩ := ((hmem a).1 ha).file
    obtain ⟨_, hleads'⟩ := ((hmem b).1 hb).file
    rw [PathText.components_below (hleads.isName h), PathText.components_below (hleads'.isName h)]
    exact List.append_left_lt hlt
  refine ⟨fun p => ?_, hordered.imp ?_, hordered⟩
  · simp only [paths, List.mem_map]
    exact exists_congr fun names => and_congr_left fun _ => hmem names
  · rintro p q hlt rfl
    exact lt_irrefl _ hlt

/-! ## Answers -/

/-- **What a search answers that does not follow links**: below a directory all documents, each of
them once and in order; a file that fits, itself; for anything else, why it cannot be searched. -/
theorem documents_answers {files : FileTree} (hfiles : files.IsProper)
    (hlinks : d.followLinks = false) : d.Answers files path where
  directory := by
    intro entries hlook hreach
    have hbelow : d.below files path entries = searchAll d path (fun _ _ => .none) entries [] 0 := by
      rw [below, hlinks]
      rfl
    refine ⟨paths path (d.below files path entries), (d.below files path entries).errors, ?_, ?_⟩
    · simp only [documents, hlook]
    · rw [hbelow]
      exact lists_paths (FileTree.isProper_of_look hfiles hlook) hreach
  file := by
    intro content hlook
    simp only [documents, hlook]
  other := by
    intro e hlook hfile hdirectory
    cases e with
    | file content => exact absurd rfl (hfile content)
    | directory entries => exact absurd rfl (hdirectory entries)
    | link target => simp only [documents, hlook]
    | device => simp only [documents, hlook]
  missing := by
    intro fault hlook
    simp only [documents, hlook]

/-- A directory with documents at two depths, one of them too deep, and a link to a document. -/
def site : Directory := [
  ("index.html", .file (.ok [])),
  ("latest.html", .link "index.html"),
  ("index", .directory [
    ("old", .directory [("page.html", .file (.ok []))]),
    ("page.html", .file (.ok [])),
    ("notes.txt", .file (.ok []))])]

theorem documents_answers_of_site :
    (⟨site, []⟩ : FileTree).IsProper ∧ ({ maxDepth := some 1 } : Discovery).followLinks = false ∧
      (⟨site, []⟩ : FileTree).look "." = .ok (.directory site) ∧ InReach "." site ∧
      ∃ paths errors,
        ({ maxDepth := some 1 } : Discovery).documents ⟨site, []⟩ "." = .ok (paths, errors) ∧
          ({ maxDepth := some 1 } : Discovery).Lists "." site paths := by
  have hold : Directory.IsProper [("page.html", .file (.ok []))] :=
    .cons (by decide) (by simp) (by rintro _ ⟨⟩) .nil
  have hindex : Directory.IsProper [("old", .directory [("page.html", .file (.ok []))]),
      ("page.html", .file (.ok [])), ("notes.txt", .file (.ok []))] := by
    refine .cons (by decide) (by simp) ?_ (.cons (by decide) (by simp) (by rintro _ ⟨⟩)
      (.cons (by decide) (by simp) (by rintro _ ⟨⟩) .nil))
    rintro _ ⟨⟩
    exact hold
  have hsite : (⟨site, []⟩ : FileTree).IsProper := by
    refine .cons (by decide) (by simp) (by rintro _ ⟨⟩) (.cons (by decide) (by simp)
      (by rintro _ ⟨⟩) (.cons (by decide) (by simp) ?_ .nil))
    rintro _ ⟨⟩
    exact hindex
  have hlook : (⟨site, []⟩ : FileTree).look "." = .ok (.directory site) := by rfl
  have hreach : InReach "." site := by
    intro names e h
    simp only [site, Directory.leads_cons, reduceCtorEq, false_and, exists_const,
      Entry.directory.injEq, exists_and_left, exists_eq_left', Directory.leads_nil, or_self,
      or_false, ↓existsAndEq, true_and, false_or] at h
    rcases h with ⟨rfl, -⟩ | ⟨rfl, -⟩ | ⟨rfl, -⟩ |
      ⟨_, rfl, ⟨rfl, -⟩ | ⟨rfl, -⟩ | ⟨rfl, -⟩ | ⟨rfl, -⟩⟩ <;> decide
  exact ⟨hsite, rfl, hlook, hreach, (documents_answers hsite rfl).directory site hlook hreach⟩

end HAtom.Discovery
