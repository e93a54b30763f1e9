import Devnet.Proofs.Url.Normal

set_option autoImplicit false

namespace Devnet.Url

def Printable (text : List Char) : Prop := ∀ c ∈ text, isPrintable c = true

structure Authority.HasPrintableParts (authority : Authority) : Prop where
  username : Printable authority.username.toList
  password : Printable authority.password.toList
  host : Printable authority.host.text.toList

structure HasPrintableParts (url : Url) : Prop where
  scheme : Printable url.scheme.toList
  authority : ∀ authority ∈ url.authority, authority.HasPrintableParts
  path : Printable url.path.toList
  query : ∀ query ∈ url.query, Printable query.toList
  fragment : ∀ fragment ∈ url.fragment, Printable fragment.toList

section Texts

theorem printable_nil : Printable [] := fun _ member => nomatch member

theorem printable_append (a b : List Char) (first : Printable a) (second : Printable b) : Printable (a ++ b) := by
  intro c member
  rcases List.mem_append.mp member with before | behind
  · exact first c before
  · exact second c behind

theorem printable_sublist (a b : List Char) (inside : a.Sublist b) (printable : Printable b) : Printable a :=
  fun c member => printable c (inside.subset member)

theorem visible_printable (c : Char) (visible : Visible c) : isPrintable c = true := by
  rw [isPrintable, Bool.and_eq_true, decide_eq_true_eq, decide_eq_true_eq]
  exact ⟨Nat.le_of_lt visible.1, visible.2⟩

theorem slash_printable : Printable ['/'] := members_checked _ _ rfl

theorem encoded_character_printable (keeps : Char → Bool) (fits : ∀ c, keeps c = true → isPrintable c = true) (c : Char) :
    Printable (encodeCharacter keeps c) := by
  have encoding : ∀ other ∈ encodingCharacters, isPrintable other = true := members_checked _ _ rfl
  rcases encoded_character keeps c with alone | encoded
  · rw [alone.1]
    intro other member
    rw [List.mem_singleton.mp member]
    exact fits c alone.2
  · exact fun other member => encoding other (encoded other member)

theorem percent_encode_printable (keeps : Char → Bool) (fits : ∀ c, keeps c = true → isPrintable c = true)
    (text : List Char) : Printable (percentEncode keeps text) := by
  intro c member
  obtain ⟨source, _, written⟩ := List.mem_flatMap.mp member
  exact encoded_character_printable keeps fits source c written

theorem kept_printable (keeps : Char → Bool) (keeping : KeepsEncoding keeps) (text : List Char)
    (kept : ∀ c ∈ text, keeps c = true) : Printable text :=
  fun c member => visible_printable c (keeping.visible c (kept c member))

end Texts

section Path

variable (kind : Kind)

theorem drop_segment_sublist (path : List Char) : (dropSegment kind path).Sublist path := by
  have cut : (throughLastSlash path).Sublist path := by
    have backwards := (List.dropWhile_sublist (l := path.reverse) fun c => decide (c ≠ '/')).reverse
    rwa [List.reverse_reverse] at backwards
  rw [dropSegment]
  split
  · exact List.Sublist.refl path
  · split
    · exact List.Sublist.refl path
    · exact cut

theorem parent_sublist (path : List Char) : (parent kind path).Sublist path := by
  rw [parent]
  split
  · exact (drop_segment_sublist kind _).trans (List.dropLast_sublist path)
  · exact drop_segment_sublist kind path

theorem with_slash_printable (path : List Char) (printable : Printable path) : Printable (withSlash path) := by
  rw [withSlash]
  split
  · exact printable
  · exact printable_append path ['/'] printable slash_printable

theorem add_printable (state : PathState) (segment : List Char) (slash : Bool) (path : Printable state.path)
    (read : Printable segment) : Printable (state.add kind segment slash).path := by
  have above := printable_sublist _ _ (parent_sublist kind state.path) path
  have closing : Printable (if slash then ['/'] else []) := by
    cases slash with
    | true => exact slash_printable
    | false => exact printable_nil
  unfold PathState.add
  dsimp only
  split
  case isTrue =>
    cases slash with
    | true => exact with_slash_printable _ above
    | false => exact above
  case isFalse =>
    split
    · exact with_slash_printable _ path
    · generalize (if slash then ['/'] else []) = close at closing ⊢
      split
      · have letter := printable_sublist _ _ (List.take_sublist 1 segment) read
        have colon : Printable [':'] := members_checked _ _ rfl
        exact printable_append _ _ (printable_append _ _ (printable_append _ _ path letter) colon) closing
      · exact printable_append _ _ (printable_append _ _ path read) closing

theorem after_drive_printable (path segment : List Char) (before : Printable path) (read : Printable segment) :
    Printable (afterDrive kind path segment).1 ∧ Printable (afterDrive kind path segment).2 := by
  have whole := printable_append _ _ (printable_append _ _ before read) slash_printable
  rw [afterDrive]
  split
  · exact ⟨printable_sublist _ _ (List.take_sublist _ _) whole, printable_sublist _ _ (List.drop_sublist _ _) whole⟩
  · exact ⟨before, read⟩

theorem read_segments_printable (state : PathState) (segment : List Char) (fresh : Bool) (text : List Char)
    (path : Printable state.path) (read : Printable segment) :
    Printable (readSegments kind state segment fresh text).1.path := by
  induction text generalizing state segment fresh with
  | nil => exact add_printable kind state segment false path read
  | cons c rest ih =>
      rw [readSegments]
      split
      · exact ih state segment true path read
      · split
        · exact ih _ [] true (add_printable kind state segment true path read) printable_nil
        · split
          · exact add_printable kind state segment false path read
          · have written := encoded_character_printable keepsInPath
              (fun other kept => visible_printable other (path_keeps.visible other kept)) c
            cases fresh with
            | false => exact ih state _ false path (printable_append _ _ read written)
            | true =>
                have moved := after_drive_printable kind state.path segment path read
                exact ih _ _ false moved.1 (printable_append _ _ moved.2 written)

theorem extend_path_printable (path : List Char) (onHost : Bool) (text : List Char) (printable : Printable path) :
    Printable (extendPath kind path onHost text).1.path := by
  have read := read_segments_printable kind ⟨path, onHost⟩ [] true text printable printable_nil
  rw [extendPath]
  cases kind with
  | file =>
      exact printable_append ['/'] _ slash_printable (printable_sublist _ _ (List.dropWhile_sublist _) read)
  | web => exact read
  | other => exact read

theorem path_after_authority_printable (text : List Char) : Printable (pathAfterAuthority kind text).1.path := by
  have root (rest : List Char) := extend_path_printable kind ['/'] true rest slash_printable
  unfold pathAfterAuthority
  split
  case h_1 =>
    split
    · exact root _
    · exact root _
  case h_2 => exact root []
  case h_3 =>
    split
    · exact printable_nil
    · split
      · exact extend_path_printable kind [] true _ printable_nil
      · exact root _
  case h_4 => exact printable_nil

end Path

section Parts

theorem finish_printable (scheme : String) (authority : Option Authority) (path rest : List Char)
    (named : Printable scheme.toList) (hosted : ∀ found ∈ authority, found.HasPrintableParts)
    (printable : Printable path) : (finish scheme authority path rest).HasPrintableParts := by
  have kept := suffix_sound (kindOf scheme) rest _ _ rfl
  refine ⟨named, hosted, ?_, ?_, ?_⟩
  · rw [finish, String.toList_ofList]
    exact printable
  · intro query member
    exact kept_printable _ (query_keeps _) _ (kept.1 query member)
  · intro fragment member
    exact kept_printable _ fragment_keeps _ (kept.2 fragment member)

theorem fragment_printable (url : Url) (text : List Char) (parts : url.HasPrintableParts) :
    { url with fragment := (queryAndFragment url.kind text).2 : Url }.HasPrintableParts := by
  have kept := suffix_sound url.kind text _ _ rfl
  refine ⟨parts.scheme, parts.authority, parts.path, parts.query, ?_⟩
  intro fragment member
  exact kept_printable _ fragment_keeps _ (kept.2 fragment member)

theorem ipv6_printable (pieces : List Nat) : Printable (Host.ipv6 pieces).text.toList := by
  have all : ∀ c ∈ '[' :: ']' :: ':' :: (List.range 16).map Numeral.digitChar, isPrintable c = true :=
    members_checked _ _ rfl
  exact fun c member => all c (ipv6_host_member pieces c member)

theorem normal_host_printable (found : Host) (is : IsHost found) : Printable found.text.toList :=
  fun c member => visible_printable c (host_members found is c member).1

theorem host_printable (kind : Kind) (text : List Char) (found : Host) (read : host kind text = .ok found) :
    Printable found.text.toList := by
  rw [host] at read
  split at read
  · split at read
    · cases read
    · exact normal_host_printable found (domain_host_sound text found read)
  · unfold unparsedHost at read
    split at read
    case h_1 rest =>
      rw [bracketed] at read
      split at read
      · split at read
        · cases read
          exact ipv6_printable _
        · cases read
      · cases read
    case h_2 =>
      split at read
      · cases read
      · cases read
        rw [Host.text, String.toList_ofList]
        exact percent_encode_printable keepsVerbatim (fun _ kept => kept) text

theorem with_authority_printable (scheme : String) (text : List Char) (url : Url) (named : Printable scheme.toList)
    (read : withAuthority scheme text = .ok url) : url.HasPrintableParts := by
  obtain ⟨info, found, behind, user, hosted, _, same⟩ := with_authority_parts scheme text url read
  have kept := userinfo_sound _ text info user
  rw [same]
  apply finish_printable scheme _ _ _ named
  · intro authority member
    rw [← Option.some.inj member]
    exact ⟨kept_printable _ userinfo_keeps _ kept.1, kept_printable _ userinfo_keeps _ kept.2,
      host_printable _ _ found hosted⟩
  · exact path_after_authority_printable _ behind.2

theorem file_printable : Printable "file".toList := members_checked _ _ rfl

theorem file_authority_printable (host : Host) (printable : Printable host.text.toList) :
    ∀ found ∈ fileAuthority host, found.HasPrintableParts := by
  intro found member
  rw [← Option.some.inj member]
  exact ⟨printable_nil, printable_nil, printable⟩

theorem no_host_printable : ∀ found ∈ fileAuthority noHost, found.HasPrintableParts :=
  file_authority_printable noHost printable_nil

theorem file_host_printable (text : List Char) (url : Url) (read : fileWithHost text = .ok url) :
    url.HasPrintableParts := by
  obtain ⟨host, source, is, url_is⟩ := file_host_parts text url read
  have hosted : ∀ found ∈ fileAuthority host, found.HasPrintableParts := by
    rcases is with none | normal
    · rw [none]
      exact no_host_printable
    · exact file_authority_printable host (normal_host_printable host normal)
  rcases url_is with freely | behind
  · rw [freely]
    exact finish_printable _ _ _ _ file_printable hosted (extend_path_printable _ _ _ _ slash_printable)
  · rw [behind]
    exact finish_printable _ _ _ _ file_printable hosted (path_after_authority_printable _ _)

theorem fresh_file_printable (text : List Char) : (freshFile text).HasPrintableParts :=
  finish_printable "file" _ _ _ file_printable no_host_printable
    (extend_path_printable .file ['/'] false text slash_printable)

end Parts

section References

theorem on_base_printable (base : Url) (path rest : List Char) (parts : base.HasPrintableParts)
    (printable : Printable path) : (onBase base path rest).HasPrintableParts :=
  finish_printable _ _ _ _ parts.scheme parts.authority printable

theorem same_path_printable (base url : Url) (text : List Char) (parts : base.HasPrintableParts)
    (kept : samePath? base text = some url) : url.HasPrintableParts := by
  unfold samePath? at kept
  split at kept
  case h_1 =>
    cases kept
    exact ⟨parts.scheme, parts.authority, parts.path, parts.query, fun _ member => nomatch member⟩
  case h_2 =>
    cases kept
    exact on_base_printable base _ _ parts parts.path
  case h_3 =>
    cases kept
    exact fragment_printable base _ parts
  case h_4 => cases kept

theorem file_from_root_printable (base : Option Url) (text : List Char) (bases : ∀ found ∈ base, found.HasPrintableParts) :
    (fileFromRoot base text).HasPrintableParts := by
  have result (authority : Option Authority) (path : List Char) (hosted : ∀ found ∈ authority, found.HasPrintableParts)
      (printable : Printable path) :
      (finish "file" authority (extendPath .file path false text).1.path (extendPath .file path false text).2).HasPrintableParts :=
    finish_printable _ _ _ _ file_printable hosted (extend_path_printable _ _ _ _ printable)
  unfold fileFromRoot
  dsimp only
  split
  · exact result _ _ no_host_printable printable_nil
  · cases base with
    | none => exact result _ _ no_host_printable printable_nil
    | some base =>
        have parts := bases base rfl
        dsimp only
        split
        · have drive : Printable (firstSegment base.path.toList) :=
            printable_sublist _ _ ((List.takeWhile_sublist _).trans (List.drop_sublist _ _)) parts.path
          exact result _ _ no_host_printable (printable_append ['/'] _ slash_printable drive)
        · exact result _ _ parts.authority printable_nil

theorem beside_file_printable (base : Option Url) (text : List Char) (bases : ∀ found ∈ base, found.HasPrintableParts) :
    (besideFile base text).HasPrintableParts := by
  unfold besideFile
  cases base with
  | none => exact fresh_file_printable text
  | some base =>
      have parts := bases base rfl
      dsimp only
      split
      case h_1 url kept => exact same_path_printable base url text parts kept
      case h_2 =>
        split
        · exact fresh_file_printable text
        · have beside := printable_sublist _ _ (drop_segment_sublist .file base.path.toList) parts.path
          exact on_base_printable base _ _ parts (extend_path_printable _ _ _ _ beside)

theorem file_reference_printable (base : Option Url) (text : List Char) (url : Url)
    (bases : ∀ found ∈ base, found.HasPrintableParts) (read : fileReference base text = .ok url) :
    url.HasPrintableParts := by
  unfold fileReference at read
  split at read
  · cases read
    exact beside_file_printable base [] bases
  · split at read
    · split at read
      · cases read
        exact file_from_root_printable base _ bases
      · split at read
        · exact file_host_printable _ url read
        · cases read
          exact file_from_root_printable base _ bases
    · cases read
      exact beside_file_printable base _ bases

theorem from_root_printable (base : Url) (text : List Char) (parts : base.HasPrintableParts) :
    (fromRoot base text).HasPrintableParts :=
  on_base_printable base _ _ parts (extend_path_printable _ _ _ _ slash_printable)

theorem beside_path_printable (base : Url) (text : List Char) (parts : base.HasPrintableParts) :
    (besidePath base text).HasPrintableParts := by
  have beside := printable_sublist _ _ (drop_segment_sublist base.kind base.path.toList) parts.path
  apply on_base_printable base _ _ parts
  apply extend_path_printable
  split
  · exact slash_printable
  · exact beside

theorem reference_printable (base url : Url) (text : List Char) (parts : base.HasPrintableParts)
    (read : reference base text = .ok url) : url.HasPrintableParts := by
  unfold reference at read
  split at read
  case h_1 kept =>
    cases read
    exact same_path_printable base _ text parts kept
  case h_2 =>
    split at read
    · exact with_authority_printable _ _ url parts.scheme read
    · split at read
      · exact with_authority_printable _ _ url parts.scheme read
      · split at read
        · cases read
          exact from_root_printable base _ parts
        · cases read
          exact beside_path_printable base _ parts
    · cases read
      split
      · exact from_root_printable base _ parts
      · exact beside_path_printable base _ parts
    · cases read
      exact parts

theorem other_url_printable (scheme : String) (text : List Char) (url : Url) (named : Printable scheme.toList)
    (read : otherUrl scheme text = .ok url) : url.HasPrintableParts := by
  have hostless : ∀ found ∈ (none : Option Authority), found.HasPrintableParts := fun _ member => nomatch member
  unfold otherUrl at read
  split at read
  · exact with_authority_printable scheme _ url named read
  · cases read
    exact finish_printable scheme _ _ _ named hostless (extend_path_printable .other ['/'] true _ slash_printable)
  · cases read
    exact finish_printable scheme _ _ _ named hostless (percent_encode_printable keepsVerbatim (fun _ kept => kept) _)

theorem with_scheme_printable (base : Option Url) (scheme : String) (text : List Char) (url : Url)
    (bases : ∀ found ∈ base, found.HasPrintableParts) (named : Printable scheme.toList)
    (read : withScheme base scheme text = .ok url) : url.HasPrintableParts := by
  have same : ∀ found ∈ base.filter (fun found => found.scheme = scheme), found.HasPrintableParts := by
    intro found member
    exact bases found (Option.mem_filter_iff.mp member).1
  rw [withScheme] at read
  split at read
  case h_1 => exact file_reference_printable _ text url same read
  case h_2 =>
    simp only at read
    split at read
    case h_1 found kept =>
      split at read
      · exact reference_printable found url _ (same found kept) read
      · exact with_authority_printable scheme _ url named read
    case h_2 => exact with_authority_printable scheme _ url named read
  case h_3 => exact other_url_printable scheme _ url named read

end References

theorem scheme_character_ascii (c : Char) (allowed : isSchemeCharacter c = true) : c.toNat < 0x80 := by
  rw [isSchemeCharacter, isLetter] at allowed
  have marks : ∀ mark ∈ ['+', '-', '.'], mark.toNat < 0x80 := members_checked _ _ rfl
  simp only [Bool.or_eq_true, Bool.and_eq_true, decide_eq_true_eq, List.contains_iff_mem] at allowed
  rcases allowed with ((upper | lower) | digit) | mark
  · omega
  · omega
  · omega
  · exact marks c mark

theorem scheme_character_printable (c : Char) (allowed : isSchemeCharacter c = true) :
    isPrintable (lowerAscii c) = true :=
  characters_checked 0x80 (fun c => isSchemeCharacter c = true → isPrintable (lowerAscii c) = true) (by decide) c
    (scheme_character_ascii c allowed) allowed

theorem scheme_printable (text rest : List Char) (scheme : String) (found : scheme? text = some (scheme, rest)) :
    Printable scheme.toList := by
  unfold scheme? at found
  split at found
  case h_2 => cases found
  case h_1 =>
    simp only at found
    split at found
    case h_2 => cases found
    case h_1 =>
      split at found
      case isFalse => cases found
      case isTrue allowed =>
        cases found
        intro c member
        rw [String.toList_ofList] at member
        obtain ⟨source, among, same⟩ := List.mem_map.mp member
        have each := List.all_eq_true.mp (Bool.and_eq_true_iff.mp allowed).2
        exact same ▸ scheme_character_printable source (each source among)

theorem resolve_printable (base : Option Url) (text : String) (url : Url)
    (bases : ∀ found ∈ base, found.HasPrintableParts) (read : resolve base text = .ok url) : url.HasPrintableParts := by
  unfold resolve at read
  simp only at read
  split at read
  case h_1 _ scheme rest found =>
    exact with_scheme_printable _ scheme rest url bases (scheme_printable _ rest scheme found) read
  case h_2 => cases read
  case h_3 base found =>
    have parts := bases base rfl
    split at read
    · cases read
      exact fragment_printable base _ parts
    · split at read
      · cases read
      · split at read
        · exact file_reference_printable (some base) _ url bases read
        · exact reference_printable base url _ parts read

theorem parse_printable (text : String) (url : Url) (read : parse text = .ok url) : url.HasPrintableParts :=
  resolve_printable none text url (fun _ member => nomatch member) read

theorem join_printable (base url : Url) (text : String) (parts : base.HasPrintableParts)
    (read : base.join text = .ok url) : url.HasPrintableParts := by
  refine resolve_printable (some base) text url ?_ read
  intro found member
  rw [← Option.some.inj member]
  exact parts

theorem authority_text_printable (authority : Authority) (parts : authority.HasPrintableParts) :
    Printable authority.text.toList := by
  have slashes : Printable "//".toList := members_checked _ _ rfl
  have digits : ∀ c ∈ ':' :: (List.range 10).map Numeral.digitChar, isPrintable c = true := members_checked _ _ rfl
  have port : Printable authority.portText.toList := fun c member => digits c (port_text_members authority c member)
  have colon : Printable [':'] := members_checked _ _ rfl
  have mark : Printable ['@'] := members_checked _ _ rfl
  have info : Printable authority.info := by
    rw [Authority.info]
    split
    · exact printable_append _ [] parts.username printable_nil
    · exact printable_append _ _ parts.username (printable_append [':'] _ colon parts.password)
  have userinfo : Printable authority.userinfo.toList := by
    rw [userinfo_text]
    split
    · exact printable_nil
    · exact printable_append _ _ info mark
  rw [Authority.text, String.toList_append, String.toList_append, String.toList_append]
  exact printable_append _ _ (printable_append _ _ (printable_append _ _ slashes userinfo) parts.host) port

section Printed

variable (url : Url) (parts : url.HasPrintableParts)
include parts

theorem before_path_printable : Printable url.beforePath.toList := by
  have dotted : Printable "/.".toList := members_checked _ _ rfl
  rw [beforePath]
  cases hosted : url.authority with
  | none =>
      dsimp only
      split
      · exact dotted
      · exact printable_nil
  | some authority =>
      exact authority_text_printable authority (parts.authority authority hosted)

theorem suffix_printable : Printable url.suffix := by
  have mark : Printable ['?'] := members_checked _ _ rfl
  have hash : Printable ['#'] := members_checked _ _ rfl
  have query : Printable url.queryText.toList := by
    rw [query_text]
    cases asked : url.query with
    | none => exact printable_nil
    | some query => exact printable_append ['?'] _ mark (parts.query query asked)
  have fragment : Printable url.fragmentText.toList := by
    rw [fragment_text]
    cases named : url.fragment with
    | none => exact printable_nil
    | some fragment => exact printable_append ['#'] _ hash (parts.fragment fragment named)
  exact printable_append _ _ query fragment

theorem text_printable : Printable url.text.toList := by
  have colon : Printable ":".toList := members_checked _ _ rfl
  have front := printable_append _ _ (printable_append _ _ parts.scheme colon) (before_path_printable url parts)
  have whole := printable_append _ _ (printable_append _ _ front parts.path) (suffix_printable url parts)
  rw [suffix] at whole
  simpa [text] using whole

theorem without_userinfo_printable : url.withoutUserinfo.HasPrintableParts := by
  refine ⟨parts.scheme, ?_, parts.path, parts.query, parts.fragment⟩
  intro stripped member
  obtain ⟨authority, hosted, same⟩ := Option.map_eq_some_iff.mp member
  rw [← same]
  exact ⟨printable_nil, printable_nil, (parts.authority authority hosted).host⟩

theorem without_fragment_printable : url.withoutFragment.HasPrintableParts :=
  ⟨parts.scheme, parts.authority, parts.path, parts.query, fun _ member => nomatch member⟩

end Printed

end Devnet.Url
