import RouteScaffold.Proofs.Files.Clear

/-!
# Two names in one directory

Two paths that differ in the name at their end, the names being of one length, lead to the same in trees
that are alike along the directory and at the two places (`spot_sibling`): both are refused with one fault,
both names are free, or at both there is a file, or a directory.  Only the names differ (`Sibling`).
-/

namespace RouteScaffold.Files

/-- What two paths lead to that end in two names in one directory. -/
inductive Sibling (name other : String) : Except Fault Spot → Except Fault Spot → Prop
  | error (fault : Fault) : Sibling name other (.error fault) (.error fault)
  | there (directory : Location) (isDirectory : Bool) :
      Sibling name other (.ok (.there (directory ++ [name]) isDirectory))
        (.ok (.there (directory ++ [other]) isDirectory))
  | free (directory : Location) :
      Sibling name other (.ok (.free directory name)) (.ok (.free directory other))

/-- A segment is pushed onto something that does not depend on it. -/
theorem exists_push_eq (path : List Char) : ∃ front, ∀ segment, push path segment = front ++ segment := by
  cases hlast : path.getLast? with
  | none => exact ⟨[], fun segment => by rw [push, hlast]; rfl⟩
  | some last =>
      by_cases hslash : last = '/'
      · exact ⟨path, fun segment => by rw [push, hlast, hslash]; rfl⟩
      · refine ⟨path ++ ['/'], fun segment => ?_⟩
        unfold push
        split
        · rename_i hnone
          cases hlast.symm.trans hnone
        · rename_i hsome
          exact absurd (Option.some.inj (hlast.symm.trans hsome)) hslash
        · rw [List.append_assoc]
          rfl

section

variable {name : String} (h : IsName name) (directory : String)

include h

theorem steps_join : steps (join directory name) = steps directory ++ [name] := by
  rw [join, steps_push _ h.toList_ne_nil h.slash_not_mem, String.ofList_toList, String.ofList_toList]

theorem FileTree.startOf_join (tree : FileTree) :
    tree.startOf (join directory name) = tree.startOf directory := by
  refine startOf_eq_of_isAbsolute ?_
  rw [join, isAbsolute_push _ h.slash_not_mem, String.ofList_toList]

theorem isEmpty_join : (join directory name).isEmpty = false := by
  obtain ⟨front, hfront⟩ := exists_push_eq directory.toList
  rw [String.isEmpty_eq_false_iff, Ne, ← String.toList_eq_nil_iff, join, hfront, String.toList_ofList]
  simp [h.toList_ne_nil]

theorem endsInSlash_join : endsInSlash (join directory name) = false := by
  obtain ⟨front, hfront⟩ := exists_push_eq directory.toList
  rw [endsInSlash, join, String.toList_ofList, hfront, decide_eq_false_iff_not,
    List.getLast?_append_of_ne_nil _ h.toList_ne_nil]
  exact fun hlast => h.slash_not_mem (List.mem_of_getLast? hlast)

end

namespace FileTree

/-- What a path leads to, unless the path itself is refused. -/
theorem spot_eq_ite (tree : FileTree) (path : String) :
    tree.spot path =
      if path.toList.contains '\x00' then .error .nulByte
      else if path.isEmpty then .error .notFound
      else if pathLimit ≤ path.utf8ByteSize then .error .nameTooLong
      else tree.spotFrom (tree.startOf path) (Files.steps path) := by
  rw [spot, resolve]
  simp only [apply_ite (Except.map Place.spot)]
  rfl

variable {first second : FileTree} {name other : String}

theorem spotFrom_sibling {location : Location} {steps : List String} (hname : IsName name)
    (hother : IsName other) (hsize : name.utf8ByteSize = other.utf8ByteSize)
    (halike : AlikeOn (· ∈ location :: way location steps) first second)
    (hlast : first.shapeAt? (follow location steps ++ [name]) =
      second.shapeAt? (follow location steps ++ [other])) :
    Sibling name other (first.spotFrom location (steps ++ [name]))
      (second.spotFrom location (steps ++ [other])) := by
  have hdirectory : first.spotFrom location steps = second.spotFrom location steps :=
    halike.spotFrom_eq fun _ hvisited => hvisited
  rw [spotFrom_append _ _ _ (List.cons_ne_nil _ _), spotFrom_append _ _ _ (List.cons_ne_nil _ _),
    hdirectory]
  -- where the directory is found it is found in both trees
  have hfirst : ∀ found isDirectory, second.spotFrom location steps = .ok (.there found isDirectory) →
      found = follow location steps ∧ first.shapeAt? found = some isDirectory ∧
        second.shapeAt? found = some isDirectory := by
    intro found isDirectory hfound
    obtain ⟨hfollow, hshape⟩ := spotFrom_there hfound
    exact ⟨hfollow, (spotFrom_there (hdirectory.trans hfound)).2, hshape⟩
  cases hfound : second.spotFrom location steps with
  | error fault => exact .error fault
  | ok found =>
      rcases found with ⟨found, isDirectory⟩ | ⟨directory, free⟩
      · cases isDirectory with
        | false => exact .error .notDirectory
        | true =>
            obtain ⟨rfl, hshape, hshapeOther⟩ := hfirst _ _ hfound
            rw [onward, onward, spotFrom_cons, spotFrom_cons, hshape, hshapeOther]
            dsimp only
            rw [if_neg hname.ne_current, if_neg hname.ne_parent, if_neg hother.ne_current,
              if_neg hother.ne_parent, hsize, hlast, spotFrom_nil, spotFrom_nil, hlast]
            split
            · exact .error .nameTooLong
            cases second.shapeAt? (follow location steps ++ [other]) with
            | none => exact .free _
            | some isDirectory => exact .there _ isDirectory
      · exact .error .notFound

/-- Paths that end in names of one length lead to the same. -/
theorem spot_sibling {directory : String} (hname : IsName name) (hother : IsName other)
    (hsize : name.utf8ByteSize = other.utf8ByteSize) (hnul : '\x00' ∉ name.toList)
    (hnulOther : '\x00' ∉ other.toList)
    (halike : AlikeOn (· ∈ first.visits directory) first second)
    (hlast : first.shapeAt? (first.locationOf directory ++ [name]) =
      second.shapeAt? (first.locationOf directory ++ [other])) :
    Sibling name other (first.spot (join directory name)) (second.spot (join directory other)) := by
  obtain ⟨front, hfront⟩ := exists_push_eq directory.toList
  have hjoin : ∀ segment, (join directory segment).toList = front ++ segment.toList := by
    intro segment
    rw [join, hfront, String.toList_ofList]
  have hcontains : (join directory name).toList.contains '\x00' =
      (join directory other).toList.contains '\x00' := by
    rw [hjoin, hjoin, List.contains_eq_mem, List.contains_eq_mem]
    simp only [List.mem_append, hnul, hnulOther]
  have hbytes : (join directory name).utf8ByteSize = (join directory other).utf8ByteSize := by
    rw [join, join, hfront, hfront, String.ofList_append, String.ofList_append,
      String.ofList_toList, String.ofList_toList, String.utf8ByteSize_append,
      String.utf8ByteSize_append, hsize]
  -- the paths are refused alike, as they differ in the last name and not in its length
  rw [spot_eq_ite, spot_eq_ite, hcontains, isEmpty_join hname, isEmpty_join hother, hbytes,
    steps_join hname, startOf_join hname, steps_join hother, startOf_join hother,
    ← startOf_congr halike.current_eq]
  split
  · exact .error _
  split
  · exact .error _
  split
  · exact .error _
  · exact spotFrom_sibling hname hother hsize halike hlast

end FileTree

end RouteScaffold.Files
