import Devnet.Proofs.Url.Encoded

set_option autoImplicit false

namespace Devnet.Url

structure IsSegment (segment : List Char) : Prop where
  kept : ∀ c ∈ segment, keepsInPath c = true
  whole : ∀ c ∈ segment, c ≠ '/' ∧ c ≠ '\\'
  undotted : isSingleDot segment = false ∧ isDoubleDot segment = false

theorem empty_segment : IsSegment [] :=
  ⟨fun _ member => (nomatch member), fun _ member => (nomatch member), ⟨rfl, rfl⟩⟩

def slashed (segments : List (List Char)) : List Char := segments.flatMap fun segment => '/' :: segment

theorem slashed_concat (segments : List (List Char)) (last : List Char) :
    slashed (segments ++ [last]) = slashed segments ++ '/' :: last := by
  simp [slashed]

def IsOpen (path : List Char) : Prop :=
  ∃ segments, (∀ segment ∈ segments, IsSegment segment) ∧ path = slashed segments ++ ['/']

def IsPath (path : List Char) : Prop :=
  ∃ segments last, (∀ segment ∈ segments, IsSegment segment) ∧ IsSegment last ∧ path = slashed segments ++ '/' :: last

theorem path_starts (path : List Char) (is : IsPath path) : ∃ rest, path = '/' :: rest := by
  obtain ⟨segments, last, _, _, same⟩ := is
  cases segments with
  | nil => exact ⟨last, same⟩
  | cons segment more => exact ⟨segment ++ slashed more ++ '/' :: last, by rw [same]; simp [slashed]⟩

theorem path_visible (path : List Char) (is : IsPath path) : ∀ c ∈ path, Visible c := by
  obtain ⟨segments, last, all, final, same⟩ := is
  have slash : Visible '/' := by decide
  have inside (segment : List Char) (sound : IsSegment segment) : ∀ c ∈ segment, Visible c := fun c member =>
    path_keeps.visible c (sound.kept c member)
  intro c member
  rw [same] at member
  rcases List.mem_append.mp member with before | behind
  · obtain ⟨segment, among, within⟩ := List.mem_flatMap.mp before
    rcases List.mem_cons.mp within with first | later
    · exact first ▸ slash
    · exact inside segment (all segment among) c later
  · rcases List.mem_cons.mp behind with first | later
    · exact first ▸ slash
    · exact inside last final c later

theorem root_open : IsOpen ['/'] := ⟨[], fun _ member => (nomatch member), rfl⟩

theorem open_closed (path segment : List Char) (opened : IsOpen path) (is : IsSegment segment) :
    IsOpen (path ++ segment ++ ['/']) := by
  obtain ⟨segments, all, same⟩ := opened
  refine ⟨segments ++ [segment], ?_, ?_⟩
  · intro other member
    rcases List.mem_append.mp member with before | last
    · exact all other before
    · exact List.mem_singleton.mp last ▸ is
  · rw [slashed_concat, same]
    simp

theorem path_of_open (path segment : List Char) (opened : IsOpen path) (is : IsSegment segment) :
    IsPath (path ++ segment) := by
  obtain ⟨segments, all, same⟩ := opened
  exact ⟨segments, segment, all, is, by rw [same]; simp⟩

theorem open_is_path (path : List Char) (opened : IsOpen path) : IsPath path := by
  have same := path_of_open path [] opened empty_segment
  rwa [List.append_nil] at same

theorem through_last_slash (front last : List Char) (whole : '/' ∉ last) :
    throughLastSlash (front ++ '/' :: last) = front ++ ['/'] := by
  have taken : (last.reverse ++ '/' :: front.reverse).dropWhile (· ≠ '/') = '/' :: front.reverse := by
    rw [List.dropWhile_append_of_pos]
    · rfl
    · intro c member
      have other : c ≠ '/' := fun same => whole (same ▸ List.mem_reverse.mp member)
      simpa using other
  rw [throughLastSlash, List.reverse_append, List.reverse_cons, List.append_assoc, List.singleton_append, taken,
    List.reverse_cons, List.reverse_reverse]

theorem drop_segment (front last : List Char) (whole : '/' ∉ last) :
    dropSegment .web (front ++ '/' :: last) = front ++ ['/'] := by
  have slash : (front ++ '/' :: last).contains '/' = true := by simp
  rw [dropSegment, slash]
  exact through_last_slash front last whole

-- The slash behind a drive letter stays, as that of the root does; any other segment goes.
theorem parent_open (path : List Char) (opened : IsOpen path) : IsOpen (parent .web path) := by
  obtain ⟨segments, all, same⟩ := opened
  have kept : dropSegment .web path = path := by
    rw [same]
    exact drop_segment (slashed segments) [] List.not_mem_nil
  rw [parent]
  by_cases closes : closesSegment path = true
  · rw [if_pos closes]
    rcases List.eq_nil_or_concat segments with none | ⟨before, last, split⟩
    · rw [same, none] at closes
      cases closes
    · rw [List.concat_eq_append] at split
      have members := split ▸ all
      have whole : '/' ∉ last := fun member =>
        ((members last (List.mem_append_right before List.mem_cons_self)).whole '/' member).1 rfl
      rw [same, List.dropLast_concat, split, slashed_concat, drop_segment _ last whole]
      exact ⟨before, fun segment member => members segment (List.mem_append_left _ member), rfl⟩
  · rw [if_neg closes, kept]
    exact ⟨segments, all, same⟩

theorem with_slash_open (path : List Char) (opened : IsOpen path) : withSlash path = path := by
  obtain ⟨segments, _, same⟩ := opened
  have last : path.getLast? = some '/' := by rw [same, List.getLast?_append]; rfl
  rw [withSlash, if_pos last]

section Add

variable (state : PathState) (segment : List Char)

theorem add_double_dot (slash : Bool) (dots : isDoubleDot segment = true) (opened : IsOpen state.path) :
    (state.add .web segment slash).path = parent .web state.path := by
  have parents := with_slash_open _ (parent_open _ opened)
  rw [PathState.add, if_pos dots]
  cases slash with
  | true => exact parents
  | false => rfl

theorem add_single_dot (slash : Bool) (undoubled : isDoubleDot segment = false) (dot : isSingleDot segment = true)
    (opened : IsOpen state.path) : (state.add .web segment slash).path = state.path := by
  rw [PathState.add, undoubled, if_neg Bool.false_ne_true, if_pos dot]
  exact with_slash_open _ opened

theorem add_plain (slash : Bool) (undoubled : isDoubleDot segment = false) (undotted : isSingleDot segment = false) :
    state.add .web segment slash =
      { state with path := state.path ++ segment ++ if slash then ['/'] else [] } := by
  rw [PathState.add, undoubled, if_neg Bool.false_ne_true, undotted, if_neg Bool.false_ne_true]
  rfl

variable (opened : IsOpen state.path) (kept : ∀ c ∈ segment, keepsInPath c = true)
  (whole : ∀ c ∈ segment, c ≠ '/' ∧ c ≠ '\\')
include opened kept whole

theorem add_closed : IsOpen (state.add .web segment true).path := by
  cases doubled : isDoubleDot segment with
  | true =>
      rw [add_double_dot state segment true doubled opened]
      exact parent_open _ opened
  | false =>
      cases dotted : isSingleDot segment with
      | true =>
          rw [add_single_dot state segment true doubled dotted opened]
          exact opened
      | false =>
          rw [add_plain state segment true doubled dotted]
          exact open_closed _ _ opened ⟨kept, whole, dotted, doubled⟩

theorem add_last : IsPath (state.add .web segment false).path := by
  cases doubled : isDoubleDot segment with
  | true =>
      rw [add_double_dot state segment false doubled opened]
      exact open_is_path _ (parent_open _ opened)
  | false =>
      cases dotted : isSingleDot segment with
      | true =>
          rw [add_single_dot state segment false doubled dotted opened]
          exact open_is_path _ opened
      | false =>
          rw [add_plain state segment false doubled dotted]
          dsimp only
          rw [if_neg Bool.false_ne_true, List.append_nil]
          exact path_of_open _ _ opened ⟨kept, whole, dotted, doubled⟩

end Add

theorem encoding_whole : ∀ c ∈ encodingCharacters, c ≠ '/' ∧ c ≠ '\\' := members_checked _ _ rfl

theorem read_character (state : PathState) (segment : List Char) (fresh : Bool) (c : Char) (rest : List Char)
    (plain : isGap c = false) (inside : c ≠ '/' ∧ c ≠ '\\' ∧ c ≠ '?' ∧ c ≠ '#') :
    readSegments .web state segment fresh (c :: rest) =
      readSegments .web state (segment ++ encodeCharacter keepsInPath c) false rest := by
  obtain ⟨slash, back, mark, hash⟩ := inside
  have drive : (if fresh then afterDrive .web state.path segment else (state.path, segment)) = (state.path, segment) := by
    cases fresh <;> rfl
  rw [readSegments]
  simp only [plain, Bool.false_eq_true, if_false, slash, back, mark, hash, false_and, or_self, drive]

theorem read_slash (state : PathState) (segment : List Char) (fresh : Bool) (c : Char) (rest : List Char)
    (slash : c = '/' ∨ c = '\\') :
    readSegments .web state segment fresh (c :: rest) = readSegments .web (state.add .web segment true) [] true rest := by
  have plain : isGap c = false := by rcases slash with rfl | rfl <;> decide
  have separates : c = '/' ∨ (c = '\\' ∧ Kind.web.isSpecial = true) := slash.imp_right fun back => ⟨back, rfl⟩
  rw [readSegments, plain, if_neg Bool.false_ne_true, if_pos separates]

theorem read_end (state : PathState) (segment : List Char) (fresh : Bool) (rest : List Char)
    (ends : ∀ c ∈ rest.head?, c = '?' ∨ c = '#') :
    readSegments .web state segment fresh rest = (state.add .web segment false, rest) := by
  cases rest with
  | nil => rfl
  | cons c more =>
      have mark := ends c rfl
      have plain : isGap c = false := by rcases mark with rfl | rfl <;> decide
      have inside : ¬ (c = '/' ∨ (c = '\\' ∧ Kind.web.isSpecial = true)) := by rcases mark with rfl | rfl <;> decide
      rw [readSegments, plain, if_neg Bool.false_ne_true, if_neg inside, if_pos mark]

-- The path stays open between segments, and the segment at hand is made of kept characters.
theorem read_path (state : PathState) (segment : List Char) (fresh : Bool) (text : List Char)
    (opened : IsOpen state.path) (kept : ∀ c ∈ segment, keepsInPath c = true)
    (whole : ∀ c ∈ segment, c ≠ '/' ∧ c ≠ '\\') : IsPath (readSegments .web state segment fresh text).1.path := by
  induction text generalizing state segment fresh with
  | nil => exact add_last state segment opened kept whole
  | cons c rest ih =>
      by_cases gap : isGap c = true
      · rw [readSegments, if_pos gap]
        exact ih state segment true opened kept whole
      · have plain : isGap c = false := Bool.not_eq_true _ ▸ gap
        by_cases slash : c = '/' ∨ c = '\\'
        · rw [read_slash state segment fresh c rest slash]
          exact ih _ [] true (add_closed state segment opened kept whole) (fun _ member => nomatch member)
            (fun _ member => nomatch member)
        · by_cases mark : c = '?' ∨ c = '#'
          · rw [read_end state segment fresh (c :: rest) fun first same => Option.some.inj same ▸ mark]
            exact add_last state segment opened kept whole
          · rw [not_or] at slash mark
            rw [read_character state segment fresh c rest plain ⟨slash.1, slash.2, mark.1, mark.2⟩]
            apply ih _ _ false opened
            · intro other member
              rcases List.mem_append.mp member with before | written
              · exact kept other before
              · exact encoded_kept keepsInPath path_keeps [c] other (by simpa [percentEncode] using written)
            · intro other member
              rcases List.mem_append.mp member with before | written
              · exact whole other before
              · rcases encoded_character keepsInPath c with alone | encoding
                · rw [alone.1] at written
                  exact List.mem_singleton.mp written ▸ slash
                · exact encoding_whole other (encoding other written)

theorem kept_inside (c : Char) (kept : keepsInPath c = true) : isGap c = false ∧ c ≠ '?' ∧ c ≠ '#' := by
  refine ⟨visible_not_gap c (path_keeps.visible c kept), ?_, ?_⟩
  · intro same
    rw [same] at kept
    cases kept
  · intro same
    rw [same] at kept
    cases kept

theorem read_segment (state : PathState) (before segment : List Char) (fresh : Bool) (rest : List Char)
    (is : IsSegment segment) : ∃ again,
      readSegments .web state before fresh (segment ++ rest) = readSegments .web state (before ++ segment) again rest := by
  have kept := is.kept
  have whole := is.whole
  clear is
  induction segment generalizing before fresh with
  | nil => exact ⟨fresh, by rw [List.append_nil]; rfl⟩
  | cons c more ih =>
      have first := kept c List.mem_cons_self
      have inside := kept_inside c first
      have slashes := whole c List.mem_cons_self
      have same : encodeCharacter keepsInPath c = [c] := if_pos first
      obtain ⟨again, read⟩ := ih (before ++ [c]) false (fun other member => kept other (List.mem_cons_of_mem c member))
        (fun other member => whole other (List.mem_cons_of_mem c member))
      refine ⟨again, ?_⟩
      rw [List.cons_append, read_character state before fresh c _ inside.1
        ⟨slashes.1, slashes.2, inside.2.1, inside.2.2⟩, same, read, List.append_assoc, List.singleton_append]

theorem read_printed (before : List Char) (onHost : Bool) (segments : List (List Char)) (last rest : List Char)
    (all : ∀ segment ∈ segments, IsSegment segment) (is : IsSegment last) (ends : ∀ c ∈ rest.head?, c = '?' ∨ c = '#') :
    ∃ printed, slashed segments ++ '/' :: last = '/' :: printed ∧
      readSegments .web ⟨before ++ ['/'], onHost⟩ [] true (printed ++ rest) =
        (⟨before ++ slashed segments ++ '/' :: last, onHost⟩, rest) := by
  induction segments generalizing before with
  | nil =>
      refine ⟨last, rfl, ?_⟩
      obtain ⟨again, read⟩ := read_segment ⟨before ++ ['/'], onHost⟩ [] last true rest is
      rw [read, read_end _ _ _ rest ends, List.nil_append, add_plain _ last false is.undotted.2 is.undotted.1]
      simp [slashed]
  | cons segment more ih =>
      have first := all segment List.mem_cons_self
      obtain ⟨printed, same, read⟩ := ih (before ++ '/' :: segment) fun other member =>
        all other (List.mem_cons_of_mem segment member)
      refine ⟨segment ++ '/' :: printed, ?_, ?_⟩
      · rw [← same]
        simp [slashed]
      · obtain ⟨again, begun⟩ := read_segment ⟨before ++ ['/'], onHost⟩ [] segment true ('/' :: printed ++ rest) first
        rw [List.append_assoc, begun, List.cons_append, read_slash _ _ _ '/' _ (.inl rfl), List.nil_append,
          add_plain _ segment true first.undotted.2 first.undotted.1]
        simp only [if_pos, List.append_assoc, List.nil_append, List.cons_append] at read ⊢
        rw [read]
        simp [slashed]

theorem path_after_authority (text : List Char) : IsPath (pathAfterAuthority .web text).1.path := by
  have read (rest : List Char) : IsPath (extendPath .web ['/'] true rest).1.path :=
    read_path ⟨['/'], true⟩ [] true rest root_open (fun _ member => nomatch member) (fun _ member => nomatch member)
  cases text with
  | nil => exact read []
  | cons c rest =>
      show IsPath (if c = '/' ∨ c = '\\' then extendPath .web ['/'] true rest
        else extendPath .web ['/'] true (c :: rest)).1.path
      by_cases slash : c = '/' ∨ c = '\\'
      · rw [if_pos slash]
        exact read rest
      · rw [if_neg slash]
        exact read (c :: rest)

theorem printed_after_authority (path rest : List Char) (is : IsPath path)
    (ends : ∀ c ∈ rest.head?, c = '?' ∨ c = '#') :
    pathAfterAuthority .web (path ++ rest) = (⟨path, true⟩, rest) := by
  obtain ⟨segments, last, all, final, same⟩ := is
  obtain ⟨printed, split, read⟩ := read_printed [] true segments last rest all final ends
  have first : pathAfterAuthority .web ('/' :: (printed ++ rest)) = extendPath .web ['/'] true (printed ++ rest) := rfl
  rw [List.nil_append, List.nil_append, split] at read
  rw [same, split, List.cons_append, first]
  exact read

end Devnet.Url
