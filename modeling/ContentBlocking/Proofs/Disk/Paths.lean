import ContentBlocking.Proofs.Disk.Files
import ContentBlocking.Proofs.Text.Cut

/-!
# Paths in a directory

The names of a path in a directory are those of the directory and one more, so
different names in one directory lead to different places.

* `Path.IsName`: a name that is no dots;
* `Path.IsFileName`: a name that something in a directory can have;
* `Disk.exists_placeOf_join`: the places in a directory;
* `Disk.placeOf_join_join`: the places in a directory of a directory;
* `Disk.draftPath_join`: the draft of a file is in the same directory.
-/

namespace ContentBlocking

open Text

namespace Path

/-- A name in a directory, not the directory itself or the one that it stands in. -/
structure IsName (name : List Char) : Prop where
  ne_nil : name ≠ []
  slash : '/' ∉ name
  dot : name ≠ ['.']
  dots : name ≠ ['.', '.']

/-- A name that something in a directory can have, and that ends in no dot. -/
structure IsFileName (name : String) : Prop where
  slash : '/' ∉ name.toList
  last : ∃ c ∈ name.toList.getLast?, c ≠ '.'

variable {directory name sub : String}

theorem isFileName_iff : IsFileName name ↔
    '/' ∉ name.toList ∧ name.toList.getLast?.any (· ≠ '.') = true := by
  rw [Option.any_eq_true]
  simp only [decide_eq_true_eq]
  exact ⟨fun h => ⟨h.slash, h.last⟩, fun h => ⟨h.1, h.2⟩⟩

instance (name : String) : Decidable (IsFileName name) := decidable_of_iff _ isFileName_iff.symm

theorem IsFileName.ne_nil (h : IsFileName name) : name.toList ≠ [] := by
  obtain ⟨c, hc, -⟩ := h.last
  rintro hnil
  rw [hnil] at hc
  cases hc

theorem IsFileName.isEmpty (h : IsFileName name) : name.isEmpty = false := by
  rw [Bool.eq_false_iff, ne_eq, String.isEmpty_iff]
  rintro rfl
  exact h.ne_nil rfl

theorem IsFileName.not_dots (h : IsFileName name) :
    name.toList ≠ ['.'] ∧ name.toList ≠ ['.', '.'] := by
  obtain ⟨c, hc, hdot⟩ := h.last
  constructor <;>
  · intro hname
    rw [hname] at hc
    exact hdot (Option.some.inj hc).symm

theorem IsFileName.isName (h : IsFileName name) : IsName name.toList :=
  ⟨h.ne_nil, h.slash, h.not_dots.1, h.not_dots.2⟩

theorem IsFileName.append {id extension : String} (hid : '/' ∉ id.toList)
    (h : IsFileName extension) : IsFileName (id ++ extension) := by
  obtain ⟨c, hc, hdot⟩ := h.last
  refine ⟨?_, c, ?_, hdot⟩
  · rw [String.toList_append, List.mem_append]
    exact not_or_intro hid h.slash
  · rw [String.toList_append, List.getLast?_append, hc]
    rfl

/-! ### Names of joined paths -/

/-- A path in a directory is the name by itself, or it has a slash in front of the
    name and before that what the directory says. -/
theorem toList_join (directory : String) :
    (∀ name, IsFileName name → (join directory name).toList = name.toList) ∨
      ∃ front, ∀ name, IsFileName name →
        (join directory name).toList = front ++ '/' :: name.toList := by
  have hhead {name : String} (h : IsFileName name) : name.toList.head? ≠ some '/' := fun hhead =>
    h.slash (List.mem_of_head? hhead)
  by_cases hempty : directory.isEmpty
  · refine .inl fun name _ => ?_
    rw [join, if_pos (.inl hempty)]
  · by_cases hlast : directory.toList.getLast? = some '/'
    · obtain ⟨front, hfront⟩ := List.getLast?_eq_some_iff.1 hlast
      refine .inr ⟨front, fun name h => ?_⟩
      rw [join, if_neg (not_or_intro hempty (hhead h)), if_pos hlast, String.toList_append, hfront]
      simp
    · refine .inr ⟨directory.toList, fun name h => ?_⟩
      rw [join, if_neg (not_or_intro hempty (hhead h)), if_neg hlast]
      simp

/-- The names of what stands in front of a slash. -/
def frontNames (front : List Char) : List String :=
  (if (splitOn '/' front).head? = some [] then ["/"] else []) ++
    ((splitOn '/' front).filter (· ≠ [])).map String.ofList

theorem exists_head?_splitOn (front : List Char) :
    ∃ piece, (splitOn '/' front).head? = some piece := by
  obtain ⟨piece, rest, hpieces⟩ := List.exists_cons_of_ne_nil (splitOn_ne_nil '/' front)
  exact ⟨piece, hpieces ▸ rfl⟩

theorem frontNames_append_cons (front rest : List Char) : frontNames (front ++ '/' :: rest) =
    frontNames front ++ ((splitOn '/' rest).filter (· ≠ [])).map String.ofList := by
  obtain ⟨piece, hpiece⟩ := exists_head?_splitOn front
  simp [frontNames, splitOn_append_cons, hpiece]

theorem frontNames_of_isName {name : List Char} (h : IsName name) :
    frontNames name = [String.ofList name] := by
  simp [frontNames, splitOn_of_not_mem h.slash, h.ne_nil]

theorem frontNames_append_isName {name : List Char} (h : IsName name) (front : List Char) :
    frontNames (front ++ '/' :: name) = frontNames front ++ [String.ofList name] := by
  rw [frontNames_append_cons, splitOn_of_not_mem h.slash]
  simp [h.ne_nil]

theorem frontNames_of_isFileName (h : IsFileName name) : frontNames name.toList = [name] := by
  rw [frontNames_of_isName h.isName, String.ofList_toList]

theorem frontNames_of_front (h : IsFileName name) (front : List Char) :
    frontNames (front ++ '/' :: name.toList) = frontNames front ++ [name] := by
  rw [frontNames_append_isName h.isName, String.ofList_toList]

theorem names_of_isFileName (h : IsFileName name) : names name = [name] := by
  simp [names, h.isEmpty, splitOn_of_not_mem h.slash, h.ne_nil]

theorem names_of_front (h : IsFileName name) {path : String} {front : List Char}
    (hpath : path.toList = front ++ '/' :: name.toList) :
    names path = frontNames front ++ [name] := by
  have hempty : path.isEmpty = false := by
    rw [Bool.eq_false_iff, ne_eq, String.isEmpty_iff]
    rintro rfl
    simp at hpath
  obtain ⟨piece, hpiece⟩ := exists_head?_splitOn front
  simp [names, hempty, hpath, splitOn_append_cons, splitOn_of_not_mem h.slash, hpiece, frontNames,
    h.ne_nil]

/-- The names of paths in a directory differ only in the last one. -/
theorem exists_names_join (directory : String) :
    ∃ front, ∀ name, IsFileName name → names (join directory name) = front ++ [name] := by
  rcases toList_join directory with hjoin | ⟨front, hjoin⟩
  · refine ⟨[], fun name h => ?_⟩
    rw [String.toList_inj.1 (hjoin name h)]
    exact names_of_isFileName h
  · exact ⟨frontNames front, fun name h => names_of_front h (hjoin name h)⟩

/-- A slash is put behind a path that ends in a name. -/
theorem toList_join_of_last {path : String} {c : Char} (hlast : path.toList.getLast? = some c)
    (hc : c ≠ '/') (h : IsFileName name) :
    (join path name).toList = path.toList ++ '/' :: name.toList := by
  have hempty : ¬(path.isEmpty ∨ name.toList.head? = some '/') := by
    rintro (hempty | hslash)
    · rw [String.isEmpty_iff.1 hempty] at hlast
      cases hlast
    · exact h.slash (List.mem_of_head? hslash)
  have hslash : path.toList.getLast? ≠ some '/' := by
    rw [hlast]
    exact fun h => hc (Option.some.inj h)
  rw [join, if_neg hempty, if_neg hslash]
  simp

theorem names_join_join (directory : String) (hsub : IsFileName sub) (h : IsFileName name) :
    names (join (join directory sub) name) = names (join directory sub) ++ [name] := by
  obtain ⟨c, hc, -⟩ := hsub.last
  have hslash : c ≠ '/' := by
    rintro rfl
    exact hsub.slash (List.mem_of_getLast? hc)
  rcases toList_join directory with hjoin | ⟨front, hjoin⟩
  · have hpath := hjoin sub hsub
    have houter := toList_join_of_last (hpath ▸ hc) hslash h
    rw [names_of_front h houter, hpath, frontNames_of_isFileName hsub, String.toList_inj.1 hpath,
      names_of_isFileName hsub]
  · have hpath := hjoin sub hsub
    have hlast : (join directory sub).toList.getLast? = some c := by
      rw [hpath, List.getLast?_append, List.getLast?_cons, hc]
      rfl
    have houter := toList_join_of_last hlast hslash h
    rw [names_of_front h houter, names_of_front hsub hpath, hpath, frontNames_of_front hsub]

end Path

namespace Disk

open ContentBlocking.Path

/-! ### Places -/

variable {directory name name' sub : String}

theorem step_of_isName {name : List Char} (h : IsName name) (place : Place) :
    step place (String.ofList name) = place ++ [String.ofList name] := by
  have hdot : String.ofList name ≠ "." := fun heq =>
    h.dot (by simpa using congrArg String.toList heq)
  have hdots : String.ofList name ≠ ".." := fun heq =>
    h.dots (by simpa using congrArg String.toList heq)
  simp [step, hdot, hdots]

theorem step_of_isFileName (h : IsFileName name) (place : Place) :
    step place name = place ++ [name] := by
  have hstep := step_of_isName h.isName place
  rwa [String.ofList_toList] at hstep

/-- The places in a directory differ only in the name. -/
theorem exists_placeOf_join (directory : String) :
    ∃ place, ∀ name, IsFileName name → placeOf (join directory name) = place ++ [name] := by
  obtain ⟨front, hnames⟩ := exists_names_join directory
  refine ⟨front.foldl step [], fun name h => ?_⟩
  rw [placeOf, hnames name h, List.foldl_append]
  exact step_of_isFileName h _

theorem placeOf_join_ne (h : IsFileName name) (h' : IsFileName name') (hne : name ≠ name') :
    placeOf (join directory name) ≠ placeOf (join directory name') := by
  obtain ⟨place, hplace⟩ := exists_placeOf_join directory
  rw [hplace name h, hplace name' h']
  intro heq
  exact hne (List.cons.inj (List.append_cancel_left heq)).1

theorem placeOf_join_join (directory : String) (hsub : IsFileName sub) (h : IsFileName name) :
    placeOf (join (join directory sub) name) = placeOf (join directory sub) ++ [name] := by
  rw [placeOf, names_join_join directory hsub h, List.foldl_append]
  exact step_of_isFileName h _

/-- What stands in a directory is not what stands in a directory of it. -/
theorem placeOf_join_join_ne (hsub : IsFileName sub) (h : IsFileName name)
    (h' : IsFileName name') :
    placeOf (join (join directory sub) name) ≠ placeOf (join directory name') := by
  obtain ⟨place, hplace⟩ := exists_placeOf_join directory
  rw [placeOf_join_join directory hsub h, hplace sub hsub, hplace name' h']
  intro heq
  have hlength := congrArg List.length heq
  simp at hlength

/-! ### Drafts -/

/-- The name of the draft of a file. -/
def draftName (name : String) : String :=
  String.ofList (stemOf name.toList ++ '.' :: "json.tmp".toList)

theorem trimEnd_of_last {path : List Char} {c : Char} (hlast : path.getLast? = some c)
    (hslash : c ≠ '/') (hdot : c ≠ '.') : trimEnd path = path := by
  obtain ⟨front, rfl⟩ := List.getLast?_eq_some_iff.1 hlast
  rw [trimEnd, List.reverse_append, List.reverse_singleton, List.singleton_append,
    trimBackwards.eq_3]
  · simp
  · rintro rest heq
    exact hslash (List.cons.inj heq).1
  · rintro rest heq
    exact hdot (List.cons.inj heq).1

theorem draftPath_join (h : IsFileName name) (hdraft : IsFileName (draftName name)) :
    draftPath (join directory name) = join directory (draftName name) := by
  obtain ⟨c, hc, hdot⟩ := h.last
  have hslash : c ≠ '/' := by
    rintro rfl
    exact h.slash (List.mem_of_getLast? hc)
  have hname : ¬(name.toList.isEmpty ∨ name.toList = ['.', '.'] ∨ name.toList = ['.']) := by
    rintro (hempty | hdots | hdots)
    · exact h.ne_nil (List.isEmpty_iff.1 hempty)
    · exact h.not_dots.2 hdots
    · exact h.not_dots.1 hdots
  rw [draftPath, withExtension]
  rcases toList_join directory with hjoin | ⟨front, hjoin⟩
  · have hpath := hjoin name h
    have hsplit : split (join directory name).toList = ([], name.toList) := by
      rw [split, hpath, trimEnd_of_last hc hslash hdot, cutLast?_of_not_mem h.slash]
    rw [hsplit]
    dsimp only
    rw [if_neg hname]
    exact String.toList_inj.1 (by rw [hjoin _ hdraft, draftName]; rfl)
  · have hpath := hjoin name h
    have hlast : (front ++ '/' :: name.toList).getLast? = some c := by
      rw [List.getLast?_append, List.getLast?_cons, hc]
      rfl
    have hsplit : split (join directory name).toList = (front ++ ['/'], name.toList) := by
      rw [split, hpath, trimEnd_of_last hlast hslash hdot, cutLast?_append_cons front h.slash]
    rw [hsplit]
    dsimp only
    rw [if_neg hname]
    exact String.toList_inj.1 (by rw [hjoin _ hdraft, draftName]; simp)

end Disk

end ContentBlocking
