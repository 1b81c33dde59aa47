import ContentBlocking.Proofs.Disk.Paths

/-!
# Drafts of files

A path either ends in a name of its own or leads to a directory, if it leads anywhere.
In the first case the draft has another name in the same directory; in the second no
file can be written. So the writing of a draft never touches the file itself, whatever
the path is.

* `Path.exists_names_eq`: slashes and dots at the end of a path do not matter;
* `Disk.placeOf_draftPath_ne`: the draft is at another place;
* `Disk.placeForFile_eq_none`: without a name nothing can be written.
-/

namespace ContentBlocking

open Text

namespace Path

variable {name : List Char}

theorem eq_of_not_isName (hslash : '/' ∉ name) (h : ¬IsName name) :
    name = [] ∨ name = ['.'] ∨ name = ['.', '.'] := by
  by_contra hnot
  obtain ⟨hnil, hnot⟩ := not_or.1 hnot
  obtain ⟨hdot, hdots⟩ := not_or.1 hnot
  exact h ⟨hnil, hslash, hdot, hdots⟩

/-! ### The end of a path -/

/-- Slashes and lone dots at the end of a path add nothing but dots to the names. -/
theorem exists_frontNames_eq (path : List Char) :
    ∃ n, frontNames path = frontNames (trimEnd path) ++ List.replicate n "." := by
  have hbackwards (r : List Char) : ∃ n,
      frontNames r.reverse = frontNames (trimBackwards r).reverse ++ List.replicate n "." := by
    fun_induction trimBackwards r with
    | case1 rest hempty =>
      obtain rfl := List.isEmpty_iff.1 hempty
      exact ⟨0, rfl⟩
    | case2 rest _ ih =>
      obtain ⟨n, hn⟩ := ih
      refine ⟨n, ?_⟩
      rw [← hn, List.reverse_cons, frontNames_append_cons]
      exact List.append_nil _
    | case3 rest hempty =>
      obtain rfl := List.isEmpty_iff.1 hempty
      exact ⟨1, rfl⟩
    | case4 rest _ ih =>
      obtain ⟨n, hn⟩ := ih
      refine ⟨n + 1, ?_⟩
      rw [List.replicate_succ', ← List.append_assoc, ← hn, List.reverse_cons, List.reverse_cons,
        List.append_assoc, List.singleton_append, frontNames_append_cons]
      rfl
    | case5 path _ _ => exact ⟨0, (List.append_nil _).symm⟩
  have hpath := hbackwards path.reverse
  rwa [List.reverse_reverse] at hpath

theorem exists_names_eq {path : String} (h : path ≠ "") :
    ∃ n, names path = frontNames (trimEnd path.toList) ++ List.replicate n "." := by
  obtain ⟨n, hn⟩ := exists_frontNames_eq path.toList
  have hempty : path.isEmpty = false := Bool.eq_false_iff.2 (mt String.isEmpty_iff.1 h)
  have hnames : names path = frontNames path.toList ++
      if (splitOn '/' path.toList).getLast? = some [] then ["."] else [] := by
    simp [names, hempty, frontNames]
  rw [hnames, hn]
  split
  · exact ⟨n + 1, by rw [List.replicate_succ', List.append_assoc]⟩
  · exact ⟨n, List.append_nil _⟩

/-- Only the root ends in a slash. -/
theorem eq_nil_of_trimEnd {path directory : List Char} (h : trimEnd path = directory ++ ['/']) :
    directory = [] := by
  have hbackwards (r rest : List Char) (h : trimBackwards r = '/' :: rest) : rest = [] := by
    fun_induction trimBackwards r with
    | case1 _ _ => exact (List.cons.inj h).2.symm
    | case2 _ _ ih => exact ih h
    | case3 _ _ => exact (List.cons.inj h).2.symm
    | case4 _ _ ih => exact ih h
    | case5 path hslash _ => exact absurd h (hslash rest)
  have hlast := congrArg List.reverse h
  rw [trimEnd, List.reverse_reverse, List.reverse_append, List.reverse_singleton,
    List.singleton_append] at hlast
  exact List.reverse_eq_nil_iff.1 (hbackwards _ _ hlast)

/-! ### The last name -/

/-- The last name of a path has no slash, and stands behind the directory. -/
theorem split_cases (path : List Char) :
    ((split path).1 = [] ∧ (split path).2 = trimEnd path ∧ '/' ∉ trimEnd path) ∨
      ∃ front, (split path).1 = front ++ ['/'] ∧ trimEnd path = front ++ '/' :: (split path).2 ∧
        '/' ∉ (split path).2 := by
  rw [split]
  split
  · next front name hcut =>
    exact .inr ⟨front, rfl, (cutLast?_append hcut).symm, not_mem_of_cutLast? hcut⟩
  · next hcut => exact .inl ⟨rfl, rfl, not_mem_of_cutLast?_eq_none hcut⟩

theorem stemOf_begins (name : List Char) : stemOf name <+: name := by
  rw [stemOf]
  split
  · next c stem extension hcut =>
    split
    · exact List.prefix_rfl
    · exact ⟨_, cutLast?_append hcut⟩
  · exact List.prefix_rfl

/-- The draft of a file has another name. -/
theorem stemOf_append_ne (h : name ≠ ['.', '.']) :
    stemOf name ++ '.' :: "json.tmp".toList ≠ name := by
  intro heq
  rw [stemOf] at heq
  split at heq
  · next c stem extension hcut =>
    rw [if_neg h] at heq
    -- What follows the last dot of the name has no dot in it.
    have hextension : "json.tmp".toList = extension :=
      (List.cons.inj (List.append_cancel_left (heq.trans (cutLast?_append hcut).symm))).2
    exact not_mem_of_cutLast? hcut (hextension ▸ by decide)
  · simpa using congrArg List.length heq

theorem isName_draft (h : IsName name) : IsName (stemOf name ++ '.' :: "json.tmp".toList) where
  ne_nil := by simp
  slash := by
    rw [List.mem_append]
    rintro (hmem | hmem)
    · exact h.slash ((stemOf_begins name).subset hmem)
    · exact absurd hmem (by decide)
  dot heq := absurd (congrArg List.getLast? heq) (by simp)
  dots heq := absurd (congrArg List.getLast? heq) (by simp)

end Path

namespace Disk

open ContentBlocking.Path

variable {d : Disk} {place : Place} {path : String} {name : List Char}

/-! ### The draft of a file with a name -/

theorem step_dot (place : Place) : step place "." = place := if_pos rfl

theorem foldl_step_dots (place : Place) (n : Nat) :
    (List.replicate n ".").foldl step place = place := by
  induction n with
  | zero => rfl
  | succ n ih => rw [List.replicate_succ, List.foldl_cons, step_dot, ih]

theorem placeOf_eq (h : path ≠ "") :
    placeOf path = (frontNames (trimEnd path.toList)).foldl step [] := by
  obtain ⟨n, hn⟩ := exists_names_eq h
  rw [placeOf, hn, List.foldl_append, foldl_step_dots]

/-- The place of a path that is written without dots at its end. -/
theorem placeOf_ofList {chars : List Char} (h : chars ≠ []) (hnames : trimEnd chars = chars) :
    placeOf (String.ofList chars) = (frontNames chars).foldl step [] := by
  have hne : String.ofList chars ≠ "" := fun heq => h (by simpa using congrArg String.toList heq)
  rw [placeOf_eq hne, String.toList_ofList, hnames]

theorem trimEnd_draft (front : List Char) :
    trimEnd (front ++ '.' :: "json.tmp".toList) = front ++ '.' :: "json.tmp".toList :=
  trimEnd_of_last (c := 'p') (by simp) (by decide) (by decide)

/-- The draft of a file with a name is at another place. -/
theorem placeOf_draftPath_ne (h : IsName (split path.toList).2) :
    placeOf (draftPath path) ≠ placeOf path := by
  have hpath : path ≠ "" := by
    rintro rfl
    exact h.ne_nil rfl
  have hdraft := isName_draft h
  have hnot : ¬((split path.toList).2.isEmpty ∨ (split path.toList).2 = ['.', '.'] ∨
      (split path.toList).2 = ['.']) := by
    rintro (hempty | hdots | hdot)
    · exact h.ne_nil (List.isEmpty_iff.1 hempty)
    · exact h.dots hdots
    · exact h.dot hdot
  have hdraftPath : draftPath path = String.ofList ((split path.toList).1 ++
      stemOf (split path.toList).2 ++ '.' :: "json.tmp".toList) := by
    rw [draftPath, withExtension]
    exact if_neg hnot
  rw [hdraftPath, placeOf_ofList (by simp) (trimEnd_draft _), placeOf_eq hpath, List.append_assoc]
  have hne : String.ofList (stemOf (split path.toList).2 ++ '.' :: "json.tmp".toList) ≠
      String.ofList (split path.toList).2 := fun heq =>
    stemOf_append_ne h.dots (by simpa using congrArg String.toList heq)
  rcases split_cases path.toList with ⟨hfront, hname, -⟩ | ⟨front, hfront, hname, -⟩
  · rw [hfront, ← hname, List.nil_append, frontNames_of_isName hdraft, frontNames_of_isName h,
      List.foldl_cons, List.foldl_cons, step_of_isName hdraft, step_of_isName h]
    intro heq
    exact hne (List.cons.inj heq).1
  · rw [hfront, hname, List.append_assoc, List.singleton_append, frontNames_append_isName hdraft,
      frontNames_append_isName h, List.foldl_append, List.foldl_append, List.foldl_cons,
      List.foldl_cons, step_of_isName hdraft, step_of_isName h]
    intro heq
    exact hne (List.cons.inj (List.append_cancel_left heq)).1

/-! ### Paths without a name -/

/-- The directories that a place stands in exist. -/
def IsRooted (d : Disk) (place : Place) : Prop :=
  ∀ q, q <+: place → q ≠ place → d.look q = some .directory

theorem isRooted_nil (d : Disk) : d.IsRooted [] := fun _ hq hne => absurd (List.prefix_nil.1 hq) hne

theorem IsRooted.dropLast (h : d.IsRooted place) : d.IsRooted place.dropLast := by
  intro q hq hne
  refine h q (hq.trans (List.dropLast_prefix place)) ?_
  rintro rfl
  -- A place is no part of what is left when its last name goes, unless it has none.
  have hlength := hq.length_le
  rw [List.length_dropLast] at hlength
  obtain rfl := List.length_eq_zero_iff.1 (by omega : q.length = 0)
  exact hne rfl

theorem IsRooted.step (h : d.IsRooted place) (hlook : d.look place = some .directory)
    (name : String) : d.IsRooted (step place name) := by
  rw [Disk.step]
  split
  · exact h
  · split
    · exact h
    · split
      · exact h.dropLast
      · intro q hq hne
        rcases List.prefix_concat_iff.1 hq with rfl | hq
        · exact absurd rfl hne
        · by_cases heq : q = place
          · rw [heq, hlook]
          · exact h q hq heq

theorem IsRooted.resolve {names : List String} {start : Place} (h : d.IsRooted start)
    (hresolve : d.resolve start names = .ok place) : d.IsRooted place := by
  induction names generalizing start with
  | nil => exact Except.ok.inj hresolve ▸ h
  | cons name names ih =>
    rw [Disk.resolve] at hresolve
    split at hresolve
    · cases hresolve
    · cases hresolve
    · next hlook =>
      split at hresolve
      · cases hresolve
      · exact ih (h.step hlook name) hresolve

/-- Two dots lead to a directory. -/
theorem IsRooted.look_step_dots (h : d.IsRooted place) (hlook : d.look place = some .directory) :
    d.look (Disk.step place "..") = some .directory := by
  rw [Disk.step, if_neg (by decide)]
  split
  · exact hlook
  · split
    · next hnot =>
      have hne : place.dropLast ≠ place := by
        intro heq
        have hlength := congrArg List.length heq
        rw [List.length_dropLast] at hlength
        obtain rfl := List.length_eq_zero_iff.1 (by omega : place.length = 0)
        exact absurd hnot.2 (by decide)
      exact h _ (List.dropLast_prefix place) hne
    · next hnot =>
      -- Then it is one of the directories that the working directory stands in.
      have habove : isAbove place = true := by simpa using hnot
      have habove' : isAbove (place ++ [".."]) = true := by
        rw [isAbove, List.all_append, ← isAbove, habove]
        rfl
      exact if_pos (.inl habove')

theorem resolve_append {names rest : List String} {start : Place}
    (h : d.resolve start (names ++ rest) = .ok place) :
    ∃ middle, d.resolve start names = .ok middle ∧ d.resolve middle rest = .ok place := by
  induction names generalizing start with
  | nil => exact ⟨start, rfl, h⟩
  | cons name names ih =>
    rw [List.cons_append, resolve] at h
    rw [resolve]
    split at h
    · cases h
    · cases h
    · next hlook =>
      split at h
      · cases h
      · next husable =>
        rw [if_neg husable]
        exact ih h

/-- A path whose last name is dots leads to a directory, if it leads anywhere. -/
theorem look_of_resolve_dots {front : List String} {last : String} {n : Nat}
    (hlast : last = "." ∨ last = "..")
    (h : d.resolve [] (front ++ [last] ++ List.replicate n ".") = .ok place) :
    d.look place = some .directory := by
  obtain ⟨middle, hmiddle, hdots⟩ := resolve_append h
  obtain ⟨start, hstart, hone⟩ := resolve_append hmiddle
  obtain rfl : place = middle := (resolve_eq_ok hdots).trans (foldl_step_dots middle n)
  have hrooted := d.isRooted_nil.resolve hstart
  rw [resolve] at hone
  split at hone
  · cases hone
  · cases hone
  · next hlook =>
    split at hone
    · cases hone
    · obtain rfl := Except.ok.inj hone
      rcases hlast with rfl | rfl
      · rwa [step_dot]
      · exact hrooted.look_step_dots hlook

/-- Nothing can be written at a path that does not end in a name. -/
theorem placeForFile_eq_none (h : ¬IsName (split path.toList).2) (d : Disk) :
    d.placeForFile path = none := by
  rw [placeForFile]
  split
  · next place hfind =>
    refine if_pos ?_
    rw [find] at hfind
    split at hfind
    · cases hfind
    · next hempty =>
      have hpath : path ≠ "" := mt String.isEmpty_iff.2 hempty
      have hplace := (resolve_eq_ok hfind).trans (placeOf_eq hpath)
      obtain ⟨n, hn⟩ := exists_names_eq hpath
      have hroot (hnames : frontNames (trimEnd path.toList) = ["/"]) :
          d.look place = some .directory := by
        rw [hplace, hnames]
        rfl
      rcases split_cases path.toList with ⟨-, hname, hslash⟩ | ⟨front, -, hname, hslash⟩
      · rw [hname] at h
        rcases eq_of_not_isName hslash h with hdots | hdots | hdots <;> rw [hdots] at hroot hn
        · exact hroot rfl
        · have hfind : d.resolve [] ([] ++ ["."] ++ List.replicate n ".") = .ok place := hn ▸ hfind
          exact look_of_resolve_dots (.inl rfl) hfind
        · have hfind : d.resolve [] ([] ++ [".."] ++ List.replicate n ".") = .ok place := hn ▸ hfind
          exact look_of_resolve_dots (.inr rfl) hfind
      · rcases eq_of_not_isName hslash h with hdots | hdots | hdots <;> rw [hdots] at hname
        · obtain rfl := eq_nil_of_trimEnd hname
          exact hroot (by rw [hname]; rfl)
        · rw [hname, frontNames_append_cons] at hn
          exact look_of_resolve_dots (.inl rfl) (hn ▸ hfind)
        · rw [hname, frontNames_append_cons] at hn
          exact look_of_resolve_dots (.inr rfl) (hn ▸ hfind)
  · rfl

end Disk

end ContentBlocking
