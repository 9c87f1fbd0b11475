import CommandShell.Builtin.Directory
import CommandShell.Machine.Standard
import CommandShell.Proofs.Files.Reordered
import CommandShell.Proofs.Text.Order

/-!
What a listing of a directory shows. It has one row for each entry, directories before all else and
each of the two groups in the order of names. Names are different in a directory, so there is just
one such order and the listing does not tell in which one the entries came.
-/
namespace CommandShell.Builtin

/-- The path of the directory that the words of `dir` ask for. -/
def listedPath (e : Environment) (words : List Text) : Text :=
  if words.isEmpty then e.directory else e.resolve (Text.unwords (words.map Line.unquote))

/-- The row of an entry. -/
def entryRow (entry : Text × Node) : Row := Row.ofNode entry.1 entry.2

/-- What a listing shows before its rows. -/
def listingHead (directory : Text) : Text :=
  "\n Directory of ".toList ++ directory ++ "\n\n".toList ++
    "Mode    LastWriteTime            Length Name\n".toList ++ Text.line (List.replicate 70 '-')

/-- What the row of a node shows before its name: what the node is, when it was changed, and its
length. -/
def rowLead (n : Node) : Text :=
  let time := Text.padRight 20 (listedTime n)
  match n.content with
  | .directory _ => "d-----  ".toList ++ time ++ "      <DIR> ".toList
  | _ => "-a----  ".toList ++ time ++ ' ' :: Text.padLeft 10 (Text.ofNat (listedLength n)) ++ [' ']

def byName (entries : List (Text × Node)) : List (Text × Node) :=
  entries.mergeSort fun a b => Text.precedes a.1 b.1

theorem isDirectoryNode_iff {n : Node} :
    isDirectoryNode n = true ↔ ∃ inner, n.content = .directory inner := by
  rw [isDirectoryNode]
  cases n.content <;> simp

theorem isDirectory_entryRow (entry : Text × Node) :
    (entryRow entry).isDirectory = isDirectoryNode entry.2 := by
  rw [entryRow, Row.ofNode, Row.isDirectory]
  cases isDirectoryNode entry.2 <;> rfl

/-- Rows show nothing of what is in a directory. -/
theorem ofNode_reordered {n m : Node} (h : n.Reordered m) (name : Text) :
    Row.ofNode name m = Row.ofNode name n := by
  obtain ⟨content, mode, modified⟩ := n
  obtain ⟨other, _, _⟩ := m
  obtain ⟨reordered, rfl, rfl⟩ := h
  cases reordered <;> rfl

theorem byName_perm (entries : List (Text × Node)) : (byName entries).Perm entries :=
  List.mergeSort_perm _ _

/-- Rows are in the order of their names, and those of one name by time and length. -/
theorem Row.leads_precedes : Text.Leads Row.name Row.precedes where
  trans a b c first second := by
    simp only [Row.precedes] at first second ⊢
    grind [Text.precedes_trans, Text.precedes_antisymm]
  total a b := by
    have names := Text.precedes_total a.name b.name
    have times := Text.precedes_total a.time b.time
    simp only [Row.precedes]
    grind
  keys a b ordered := by
    rw [Row.precedes] at ordered
    split at ordered
    · exact ordered
    · next same =>
      rw [not_not.1 same]
      exact (Text.precedes_iff _ _).2 (.inl rfl)

theorem listingRows_eq (entries : List (Text × Node)) :
    listingRows entries =
      (Row.sorted ((entries.map entryRow).filter Row.isDirectory) ++
        Row.sorted ((entries.map entryRow).filter (not ∘ Row.isDirectory))).flatMap Row.text := by
  rw [listingRows, List.partition_eq_filter_filter]
  rfl

theorem listingRow_eq (mode time length name : Text) :
    listingRow mode time length name =
      Text.padRight 7 mode ++ ' ' :: Text.padRight 20 time ++ ' ' :: Text.padLeft 10 length ++
        ' ' :: name ++ ['\n'] := by
  simp [listingRow, Text.line, Text.unwords, List.intercalate]

/-- The row of an entry ends in its name. -/
theorem text_entryRow (entry : Text × Node) :
    (entryRow entry).text = rowLead entry.2 ++ entry.1 ++ ['\n'] := by
  obtain ⟨name, content, mode, modified⟩ := entry
  cases content <;>
    simp [entryRow, Row.ofNode, isDirectoryNode, Row.text, listingRow_eq, rowLead, Text.padRight,
      Text.padLeft]

theorem newline_not_mem_rowLead (n : Node) : '\n' ∉ rowLead n := by
  obtain ⟨content, mode, modified⟩ := n
  have stamp : '\n' ∉ (Moment.ofSeconds modified).stamp := fun member =>
    absurd (Moment.isMark_of_stamp _ _ member) (by decide)
  have length (k : Nat) : '\n' ∉ Text.ofNat k := fun member =>
    absurd (Nat.isDigit_of_mem_toDigits (by decide) (by decide) member) (by decide)
  cases content <;>
    simp [rowLead, Text.padRight, Text.padLeft, listedTime, stamp, length]

theorem listing_eq (directory : Text) (entries : List (Text × Node)) :
    listing directory entries = listingHead directory ++ listingRows entries := by
  have titles : listingRow "Mode".toList "LastWriteTime".toList "Length".toList "Name".toList =
      "Mode    LastWriteTime            Length Name\n".toList := by
    simp [listingRow_eq, Text.padRight, Text.padLeft]
  unfold listing listingHead
  rw [titles]

section
variable {entries : List (Text × Node)} (distinct : (entries.map Prod.fst).Nodup)
include distinct

theorem apart_rows : (entries.map entryRow).Pairwise fun a b => a.name ≠ b.name := by
  have names : entries.Pairwise fun a b => a.1 ≠ b.1 := List.pairwise_map.1 distinct
  exact List.pairwise_map.2 names

/-- The rows do not depend on the order in which the entries come. -/
theorem listingRows_eq_of_perm {others : List (Text × Node)}
    (perm : (others.map entryRow).Perm (entries.map entryRow)) :
    listingRows others = listingRows entries := by
  have sorted (p : Row → Bool) : Row.sorted ((others.map entryRow).filter p) =
      Row.sorted ((entries.map entryRow).filter p) :=
    Row.leads_precedes.mergeSort_eq ((apart_rows distinct).sublist List.filter_sublist)
      Row.leads_precedes (perm.filter p)
  rw [listingRows_eq, listingRows_eq, sorted, sorted]

/-- Of rows with different names only the names count for the order. -/
theorem sorted_map_entryRow :
    Row.sorted (entries.map entryRow) = (byName entries).map entryRow := by
  have names : (byName entries).map entryRow =
      (entries.map entryRow).mergeSort fun a b => Text.precedes a.name b.name :=
    List.map_mergeSort (f := entryRow) fun _ _ _ _ => rfl
  rw [names]
  exact (Text.leads_precedes Row.name).mergeSort_eq (apart_rows distinct) Row.leads_precedes
    (.refl _)

theorem pairwise_byName : (byName entries).Pairwise fun a b => Text.Before a.1 b.1 :=
  (Text.leads_precedes Prod.fst).pairwise_mergeSort (List.pairwise_map.1 distinct)

/-- The rows are those of the directories, and then those of all else. -/
theorem exists_rows :
    ∃ directories others : List (Text × Node), (directories ++ others).Perm entries ∧
      (∀ entry ∈ directories, ∃ inner, entry.2.content = .directory inner) ∧
      (∀ entry ∈ others, ∀ inner, entry.2.content ≠ .directory inner) ∧
      directories.Pairwise (fun a b => Text.Before a.1 b.1) ∧
      others.Pairwise (fun a b => Text.Before a.1 b.1) ∧
      listingRows entries =
        (directories ++ others).flatMap fun entry => rowLead entry.2 ++ entry.1 ++ ['\n'] := by
  have kept (p : Text × Node → Bool) : ((entries.filter p).map Prod.fst).Nodup :=
    distinct.sublist (List.filter_sublist.map Prod.fst)
  have directories : Row.isDirectory ∘ entryRow = fun entry => isDirectoryNode entry.2 :=
    funext isDirectory_entryRow
  refine ⟨byName (entries.filter fun entry => isDirectoryNode entry.2),
    byName (entries.filter fun entry => !isDirectoryNode entry.2), ?_, ?_, ?_,
    pairwise_byName (kept _), pairwise_byName (kept _), ?_⟩
  · exact ((byName_perm _).append (byName_perm _)).trans (List.filter_append_perm _ entries)
  · intro entry member
    have picked := List.mem_filter.1 ((byName_perm _).subset member)
    exact isDirectoryNode_iff.1 picked.2
  · intro entry member inner content
    have picked := List.mem_filter.1 ((byName_perm _).subset member)
    rw [isDirectoryNode_iff.2 ⟨inner, content⟩] at picked
    cases picked.2
  · rw [listingRows_eq, List.filter_map, List.filter_map, Function.comp_assoc, directories,
      sorted_map_entryRow (kept _), sorted_map_entryRow (kept _), ← List.map_append,
      List.flatMap_map]
    exact congrArg (List.flatMap · _) (funext text_entryRow)

end

/-- The entry of a directory with its node. -/
def withNode? (f : Files) (entry : Text × FileId) : Option (Text × Node) :=
  f.nodes[entry.2]?.map (entry.1, ·)

theorem list_eq {f : Files} {path : Text} {entries : List (Text × FileId)}
    (held : f.contentAt path = .ok (.directory entries)) :
    f.list path = .ok (entries.filterMap (withNode? f)) := by
  rw [Files.list, held]
  rfl

theorem map_withNode? {f : Files} {entries : List (Text × FileId)}
    (readable : ∀ entry ∈ entries, f.nodes[entry.2]?.isSome = true) :
    (entries.filterMap (withNode? f)).map (Prod.map id some) =
      entries.map (Prod.map id (f.nodes[·]?)) := by
  induction entries with
  | nil => rfl
  | cons entry rest ih =>
      obtain ⟨here, later⟩ := List.forall_mem_cons.1 readable
      obtain ⟨n, place⟩ := Option.isSome_iff_exists.1 here
      have found : withNode? f entry = some (entry.1, n) := by rw [withNode?, place]; rfl
      have same : Prod.map id (f.nodes[·]?) entry = (entry.1, some n) := by
        rw [← place]
        rfl
      rw [List.filterMap_cons_some found, List.map_cons, List.map_cons, ih later, same]
      rfl

theorem withNode?_reordered {f g : Files} (h : f.Reordered g) (entry : Text × FileId) :
    (withNode? g entry).map entryRow = (withNode? f entry).map entryRow := by
  have node := h.nodes entry.2
  rw [withNode?, withNode?]
  generalize f.nodes[entry.2]? = n, g.nodes[entry.2]? = m at node
  cases node with
  | none => rfl
  | some same => exact congrArg some (ofNode_reordered same entry.1)

theorem listingRows_reordered {f g : Files} (h : f.Reordered g)
    {entries others : List (Text × FileId)} (perm : others.Perm entries)
    (distinct : ((entries.filterMap (withNode? f)).map Prod.fst).Nodup) :
    listingRows (others.filterMap (withNode? g)) =
      listingRows (entries.filterMap (withNode? f)) := by
  refine listingRows_eq_of_perm distinct ?_
  rw [List.map_filterMap, List.map_filterMap]
  simp only [withNode?_reordered h]
  exact perm.filterMap _

theorem invoke_dir (name : Text) {words : List Text} (asked : words ≠ [helpWord]) {s : State}
    {directory : Text} {entries : List (Text × FileId)}
    (reached : s.files.canonical (listedPath s.environment words) = .ok directory)
    (held : s.files.contentAt directory = .ok (.directory entries)) :
    (dir name).invoke words s =
      say s (listing directory (entries.filterMap (withNode? s.files))) := by
  have body : (dir name).run words s =
      say s (listing directory (entries.filterMap (withNode? s.files))) := by
    rw [listedPath] at reached
    rw [dir, ofSignature_eq]
    dsimp only [Signature.many]
    rw [if_neg asked, List.isEmpty_map, reached]
    dsimp only
    rw [list_eq held]
  rw [invoke, body]
  rfl

/-- Files whose entries come in another order are listed in the same way. -/
theorem invoke_dir_reordered (name : Text) {words : List Text} (asked : words ≠ [helpWord])
    {s : State} {directory : Text} {entries : List (Text × FileId)}
    (reached : s.files.canonical (listedPath s.environment words) = .ok directory)
    (held : s.files.contentAt directory = .ok (.directory entries))
    (names : ((entries.filterMap (withNode? s.files)).map Prod.fst).Nodup)
    (distinct : s.files.Distinct) {files : Files} (reordered : s.files.Reordered files) :
    (dir name).invoke words (s.withFiles files) =
      say (s.withFiles files) (listing directory (entries.filterMap (withNode? s.files))) := by
  obtain ⟨others, held', perm⟩ := reordered.contentAt distinct held
  have reached' := (reordered.canonical distinct _).trans reached
  have answer : (dir name).invoke words (s.withFiles files) =
      say (s.withFiles files) (listing directory (others.filterMap (withNode? files))) :=
    invoke_dir name asked reached' held'
  rw [answer, listing_eq, listingRows_reordered reordered perm names, ← listing_eq]

/-- The listing of a directory has one row for each of its entries, none missing and none twice: the
directories first, and then everything else, links to directories too, both in strictly increasing
order of the bytes of their names. A row ends in the name of its entry, and no line ends before
that. In whatever order the entries of the directories come, the listing is the same. -/
theorem listing_canonical {s : State} {words : List Text} {directory : Text}
    {entries : List (Text × FileId)} (asked : words ≠ [helpWord])
    (reached : s.files.canonical (listedPath s.environment words) = .ok directory)
    (held : s.files.contentAt directory = .ok (.directory entries))
    (readable : ∀ entry ∈ entries, s.files.nodes[entry.2]?.isSome = true)
    (distinct : s.files.Distinct) (name : Text) :
    ∃ directories others : List (Text × Node),
      ((directories ++ others).map (Prod.map id some)).Perm
        (entries.map (Prod.map id (s.files.nodes[·]?))) ∧
      (∀ entry ∈ directories, ∃ inner, entry.2.content = .directory inner) ∧
      (∀ entry ∈ others, ∀ inner, entry.2.content ≠ .directory inner) ∧
      directories.Pairwise (fun a b => Text.Before a.1 b.1) ∧
      others.Pairwise (fun a b => Text.Before a.1 b.1) ∧
      (∀ entry ∈ directories ++ others, '\n' ∉ rowLead entry.2) ∧
      ∃ output, output = listingHead directory ++
          ((directories ++ others).flatMap fun entry => rowLead entry.2 ++ entry.1 ++ ['\n']) ∧
        (dir name).invoke words s = say s output ∧
        ∀ files, s.files.Reordered files →
          (dir name).invoke words (s.withFiles files) = say (s.withFiles files) output := by
  have listed := map_withNode? readable
  have same : (entries.filterMap (withNode? s.files)).map Prod.fst = entries.map Prod.fst := by
    simpa [Function.comp_def] using congrArg (List.map Prod.fst) listed
  have names : ((entries.filterMap (withNode? s.files)).map Prod.fst).Nodup :=
    same ▸ distinct.of_contentAt held
  obtain ⟨directories, others, perm, inner, outer, first, second, rows⟩ := exists_rows names
  refine ⟨directories, others, ?_, inner, outer, first, second,
    fun entry _ => newline_not_mem_rowLead entry.2, _, rfl, ?_, fun files reordered => ?_⟩
  · rw [← listed]
    exact perm.map _
  · rw [← rows, ← listing_eq]
    exact invoke_dir name asked reached held
  · rw [← rows, ← listing_eq]
    exact invoke_dir_reordered name asked reached held names distinct reordered

theorem listing_canonical_shuffled :
    let files := ((((Files.empty 0).layFile "/home/b".toList [0] Files.fileMode).layDirectory
      "/home/z".toList).layLink "/home/l".toList ['z']).layDirectory "/home/a".toList
    let s := State.start { assets := [] } [] { Machine.standard 0 "/home".toList with files }
    let entries := [(['b'], 2), (['z'], 3), (['l'], 4), (['a'], 5)]
    let sorted := [(['a'], 5), (['z'], 3), (['b'], 2), (['l'], 4)]
    let shuffled : Files :=
      { files with nodes := files.nodes.set 1 ⟨.directory sorted, Files.directoryMode, 0⟩ }
    let output := listingHead "/home".toList ++
      "d-----  1970-01-01 00:00          <DIR> a\n".toList ++
      "d-----  1970-01-01 00:00          <DIR> z\n".toList ++
      "-a----  1970-01-01 00:00              1 b\n".toList ++
      "-a----  1970-01-01 00:00              1 l\n".toList
    (s.files.canonical (listedPath s.environment []) = .ok "/home".toList ∧
      s.files.contentAt "/home".toList = .ok (.directory entries) ∧
      (∀ entry ∈ entries, s.files.nodes[entry.2]?.isSome = true) ∧
      s.files.Distinct ∧ s.files.Reordered shuffled) ∧
    (dir "ls".toList).invoke [] s = say s output ∧
      (dir "ls".toList).invoke [] (s.withFiles shuffled) = say (s.withFiles shuffled) output := by
  intro files s entries sorted shuffled output
  have reached : s.files.canonical (listedPath s.environment []) = .ok "/home".toList := by
    decide +kernel
  have held : s.files.contentAt "/home".toList = .ok (.directory entries) := by decide +kernel
  have readable : ∀ entry ∈ entries, s.files.nodes[entry.2]?.isSome = true := by decide +kernel
  have distinct : s.files.Distinct := by decide +kernel
  have place : s.files.nodes[1]? = some ⟨.directory entries, Files.directoryMode, 0⟩ := by
    decide +kernel
  have reordered : s.files.Reordered shuffled := Files.reordered_set place rfl (by decide)
  obtain ⟨-, -, -, -, -, -, -, -, listed, -, here, again⟩ :=
    listing_canonical (by decide) reached held readable distinct "ls".toList
  have there := again shuffled reordered
  -- The other order is sorted already, so what is listed in it can be computed.
  have computed : (dir "ls".toList).invoke [] (s.withFiles shuffled) =
      say (s.withFiles shuffled) output := by
    let directories : List (Text × Node) := [(['a'], ⟨.directory [], Files.directoryMode, 0⟩),
      (['z'], ⟨.directory [], Files.directoryMode, 0⟩)]
    let others : List (Text × Node) := [(['b'], ⟨.file [0], Files.fileMode, 0⟩),
      (['l'], ⟨.link ['z'], Files.linkMode, 0⟩)]
    have reached' : shuffled.canonical (listedPath s.environment []) = .ok "/home".toList := by
      decide +kernel
    have held' : shuffled.contentAt "/home".toList = .ok (.directory sorted) := by decide +kernel
    have found : sorted.filterMap (withNode? shuffled) = directories ++ others := by
      decide +kernel
    have first : Row.sorted (directories.map entryRow) = directories.map entryRow :=
      List.mergeSort_of_pairwise (by decide)
    have second : Row.sorted (others.map entryRow) = others.map entryRow :=
      List.mergeSort_of_pairwise (by decide)
    have rows : listingRows (directories ++ others) = (Row.sorted (directories.map entryRow) ++
        Row.sorted (others.map entryRow)).flatMap Row.text :=
      listingRows_eq (directories ++ others)
    have shown : listingHead "/home".toList ++
        (directories.map entryRow ++ others.map entryRow).flatMap Row.text = output := by
      decide +kernel
    clear_value s shuffled output
    have answer : (dir "ls".toList).invoke [] (s.withFiles shuffled) =
        say (s.withFiles shuffled)
          (listing "/home".toList (sorted.filterMap (withNode? shuffled))) :=
      invoke_dir _ (by decide) reached' held'
    rw [answer, found, listing_eq, rows, first, second, shown]
  have same : listed = output := by
    have results := congrArg Prod.snd (there.symm.trans computed)
    simpa [say, reply, Result.ok] using results
  exact ⟨⟨reached, held, readable, distinct, reordered⟩, same ▸ here, computed⟩

end CommandShell.Builtin
