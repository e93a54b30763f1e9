import Devnet.Proofs.Url.Authorities
import Devnet.Proofs.Url.Segments

set_option autoImplicit false

namespace Devnet.Url

def queryKept (url : Url) : Prop := ∀ query ∈ url.query, ∀ c ∈ query.toList, keepsInQuery true c = true

def fragmentKept (url : Url) : Prop := ∀ fragment ∈ url.fragment, ∀ c ∈ fragment.toList, keepsInFragment c = true

-- A URL of a scheme with a default port as the parser gives it.
structure IsNormal (url : Url) : Prop where
  web : url.kind = .web
  authority : ∃ authority, url.authority = some authority ∧ IsAuthority url.scheme authority
  path : IsPath url.path.toList
  query : queryKept url
  fragment : fragmentKept url

section Suffix

def suffix (url : Url) : List Char := url.queryText.toList ++ url.fragmentText.toList

theorem query_text (url : Url) : url.queryText.toList = url.query.elim [] fun query => '?' :: query.toList := by
  rw [queryText]
  cases url.query with
  | none => rfl
  | some query => simp

theorem fragment_text (url : Url) : url.fragmentText.toList = url.fragment.elim [] fun fragment => '#' :: fragment.toList := by
  rw [fragmentText]
  cases url.fragment with
  | none => rfl
  | some fragment => simp

theorem suffix_starts (url : Url) : ∀ c ∈ url.suffix.head?, c = '?' ∨ c = '#' := by
  intro c first
  rw [suffix, query_text, fragment_text] at first
  cases query : url.query with
  | some text =>
      rw [query] at first
      exact .inl (Option.some.inj first).symm
  | none =>
      cases fragment : url.fragment with
      | some text =>
          rw [query, fragment] at first
          exact .inr (Option.some.inj first).symm
      | none =>
          rw [query, fragment] at first
          cases first

theorem suffix_visible (url : Url) (query : queryKept url) (fragment : fragmentKept url) : ∀ c ∈ url.suffix, Visible c := by
  intro c member
  rw [suffix, query_text, fragment_text] at member
  rcases List.mem_append.mp member with asked | named
  · cases present : url.query with
    | none =>
        rw [present] at asked
        cases asked
    | some text =>
        rw [present] at asked
        rcases List.mem_cons.mp asked with mark | inside
        · rw [mark]
          decide
        · exact (query_keeps true).visible c (query text present c inside)
  · cases present : url.fragment with
    | none =>
        rw [present] at named
        cases named
    | some text =>
        rw [present] at named
        rcases List.mem_cons.mp named with hash | inside
        · rw [hash]
          decide
        · exact fragment_keeps.visible c (fragment text present c inside)

theorem encoded_same (keeps : Char → Bool) (text : String) (kept : ∀ c ∈ text.toList, keeps c = true) :
    String.ofList (percentEncode keeps text.toList) = text := by
  rw [percent_encode_kept keeps text.toList kept, String.ofList_toList]

theorem suffix_again (url : Url) (query : queryKept url) (fragment : fragmentKept url) :
    queryAndFragment .web url.suffix = (url.query, url.fragment) := by
  have plain := without_gaps_visible url.suffix (suffix_visible url query fragment)
  rw [queryAndFragment, plain, suffix, query_text, fragment_text]
  cases asked : url.query with
  | none =>
      cases named : url.fragment with
      | none => rfl
      | some text =>
          have same := encoded_same keepsInFragment text (fragment text named)
          exact congrArg (fun found => (none, some found)) same
  | some text =>
      have kept := query text asked
      have same := encoded_same (keepsInQuery true) text kept
      have before : ∀ c ∈ text.toList, decide (c ≠ '#') = true := by
        intro c member
        have other : c ≠ '#' := by
          intro hash
          have encoded : keepsInQuery true '#' = false := by decide
          exact Bool.false_ne_true (encoded.symm.trans (hash ▸ kept c member))
        simpa using other
      have special : Kind.web.isSpecial = true := rfl
      simp only [Option.elim_some, List.cons_append, List.takeWhile_append_of_pos before,
        List.dropWhile_append_of_pos before, special]
      cases named : url.fragment with
      | none =>
          simp only [Option.elim_none, List.takeWhile_nil, List.dropWhile_nil, List.append_nil, same]
      | some last =>
          have final := encoded_same keepsInFragment last (fragment last named)
          simp [same, final]

theorem suffix_sound (kind : Kind) (text : List Char) (query fragment : Option String)
    (read : queryAndFragment kind text = (query, fragment)) :
    (∀ found ∈ query, ∀ c ∈ found.toList, keepsInQuery kind.isSpecial c = true) ∧
      ∀ found ∈ fragment, ∀ c ∈ found.toList, keepsInFragment c = true := by
  have asked (source : List Char) (found : String)
      (member : found ∈ some (String.ofList (percentEncode (keepsInQuery kind.isSpecial) source))) :
      ∀ c ∈ found.toList, keepsInQuery kind.isSpecial c = true := by
    rw [← Option.some.inj member, String.toList_ofList]
    exact encoded_kept _ (query_keeps kind.isSpecial) source
  have named (source : List Char) (found : String)
      (member : found ∈ some (String.ofList (percentEncode keepsInFragment source))) :
      ∀ c ∈ found.toList, keepsInFragment c = true := by
    rw [← Option.some.inj member, String.toList_ofList]
    exact encoded_kept _ fragment_keeps source
  have absent (keeps : Char → Bool) (found : String) (member : found ∈ (none : Option String)) :
      ∀ c ∈ found.toList, keeps c = true := nomatch member
  unfold queryAndFragment at read
  split at read
  case h_1 rest _ =>
    simp only at read
    split at read
    case h_1 =>
      cases read
      exact ⟨asked _, named _⟩
    case h_2 =>
      cases read
      exact ⟨asked _, absent _⟩
  case h_2 =>
    cases read
    exact ⟨absent _, named _⟩
  case h_3 =>
    cases read
    exact ⟨absent _, absent _⟩

end Suffix

section Scheme

def webSchemes : List String := ["http", "https", "ws", "wss", "ftp"]

theorem web_iff (scheme : String) : kindOf scheme = .web ↔ scheme ∈ webSchemes := by
  rw [kindOf]
  by_cases file : scheme = "file"
  · rw [if_pos file, file]
    decide
  · rw [if_neg file]
    by_cases web : scheme ∈ ["http", "https", "ws", "wss", "ftp"]
    · rw [if_pos web]
      exact iff_of_true rfl web
    · rw [if_neg web]
      exact iff_of_false (by decide) web

theorem http_web (scheme : String) (http : scheme = "http" ∨ scheme = "https") : kindOf scheme = .web := by
  rcases http with plain | secure
  · rw [plain]
    decide
  · rw [secure]
    decide

theorem scheme_read (scheme : String) (web : kindOf scheme = .web) (rest : List Char) :
    scheme? (scheme.toList ++ ':' :: rest) = some (scheme, rest) := by
  have all : ∀ name ∈ webSchemes, name.toList.all (fun c => decide (c ≠ ':')) = true ∧
      withoutGaps name.toList = name.toList ∧ name.toList.head?.any isLetter = true ∧
      name.toList.all isSchemeCharacter = true ∧ String.ofList (name.toList.map lowerAscii) = name :=
    members_checked _ _ rfl
  obtain ⟨named, plain, letter, allowed, lower⟩ := all scheme ((web_iff scheme).mp web)
  have unended := List.all_eq_true.mp named
  have before : (scheme.toList ++ ':' :: rest).takeWhile (· ≠ ':') = scheme.toList := by
    rw [List.takeWhile_append_of_pos unended, List.takeWhile_cons_of_neg (by decide), List.append_nil]
  have after : (scheme.toList ++ ':' :: rest).dropWhile (· ≠ ':') = ':' :: rest := by
    rw [List.dropWhile_append_of_pos unended, List.dropWhile_cons_of_neg (by decide)]
  rw [scheme?, after, before, plain]
  generalize scheme.toList = name at letter allowed lower
  cases name with
  | nil => cases letter
  | cons first more =>
      have starts : isLetter first = true := letter
      simp only [starts, allowed, lower, Bool.and_true, if_pos]

theorem authority_kind (scheme : String) (text : List Char) (url : Url) (read : withAuthority scheme text = .ok url) :
    url.kind = kindOf scheme := by
  obtain ⟨_, _, _, _, _, _, same⟩ := with_authority_parts scheme text url read
  rw [same]
  rfl

-- The host of a file is none or a domain, and only a host that is kept has its path read behind an authority.
theorem file_host_parts (text : List Char) (url : Url) (read : fileWithHost text = .ok url) :
    ∃ host source, (host = noHost ∨ IsHost host) ∧
      (url = finish "file" (fileAuthority host) (extendPath .file ['/'] false source).1.path
          (extendPath .file ['/'] false source).2 ∨
        url = finish "file" (fileAuthority host) (pathAfterAuthority .file source).1.path
          (pathAfterAuthority .file source).2) := by
  unfold fileWithHost at read
  simp only [bind, Except.bind, pure, Except.pure] at read
  generalize withoutGaps (text.takeWhile fun c => !endsSegment c) = hostText at read
  by_cases drive : isDrive hostText = true
  · rw [if_pos drive] at read
    cases read
    exact ⟨noHost, text, .inl rfl, .inl rfl⟩
  · rw [if_neg drive] at read
    by_cases empty : hostText.isEmpty = true
    · rw [if_pos empty, if_pos (.inl trivial)] at read
      cases read
      exact ⟨noHost, _, .inl rfl, .inl rfl⟩
    · rw [if_neg empty] at read
      cases named : domainHost hostText with
      | error cause =>
          rw [named] at read
          cases read
      | ok found =>
          simp only [named] at read
          by_cases here : found = noHost ∨ found = .name "localhost"
          · rw [if_pos here] at read
            cases read
            exact ⟨noHost, _, .inl rfl, .inl rfl⟩
          · rw [if_neg here] at read
            cases read
            refine ⟨_, _, ?_, .inr rfl⟩
            split
            · exact .inr (domain_host_sound hostText found named)
            · exact .inl rfl

theorem file_host_kind (text : List Char) (url : Url) (read : fileWithHost text = .ok url) : url.kind = .file := by
  obtain ⟨_, _, _, freely | behind⟩ := file_host_parts text url read
  · rw [freely]
    rfl
  · rw [behind]
    rfl

theorem file_kind (text : List Char) (url : Url) (read : fileReference none text = .ok url) : url.kind = .file := by
  unfold fileReference at read
  split at read
  · cases read
    rfl
  · split at read
    · split at read
      · cases read
        rfl
      · split at read
        · exact file_host_kind _ url read
        · cases read
          rfl
    · cases read
      rfl

theorem other_kind (scheme : String) (text : List Char) (url : Url) (read : otherUrl scheme text = .ok url) :
    url.kind = kindOf scheme := by
  unfold otherUrl at read
  split at read
  · exact authority_kind scheme _ url read
  · cases read
    rfl
  · cases read
    rfl

theorem with_web (scheme : String) (text : List Char) (web : kindOf scheme = .web) :
    withScheme none scheme text = withAuthority scheme ((withoutGaps text).dropWhile isSlash) := by
  rw [withScheme, web]
  rfl

theorem scheme_kind (scheme : String) (text : List Char) (url : Url) (read : withScheme none scheme text = .ok url) :
    url.kind = kindOf scheme := by
  cases kind : kindOf scheme with
  | web =>
      rw [with_web scheme text kind] at read
      exact kind ▸ authority_kind scheme _ url read
  | file =>
      rw [withScheme, kind] at read
      exact file_kind text url read
  | other =>
      rw [withScheme, kind] at read
      exact kind ▸ other_kind scheme _ url read

end Scheme

theorem parse_scheme (text scheme : String) (rest : List Char) (found : scheme? (trimmed text) = some (scheme, rest)) :
    parse text = withScheme none scheme rest := by
  unfold parse resolve
  simp only [found]

theorem parse_unnamed (text : String) (found : scheme? (trimmed text) = none) :
    parse text = .error .relativeWithoutBase := by
  unfold parse resolve
  simp only [found]

section Whole

variable (url : Url)

theorem parse_normal (text : String) (web : url.kind = .web) (read : parse text = .ok url) : IsNormal url := by
  cases found : scheme? (trimmed text) with
  | none =>
      rw [parse_unnamed text found] at read
      cases read
  | some parts =>
      obtain ⟨scheme, rest⟩ := parts
      rw [parse_scheme text scheme rest found] at read
      have kind : kindOf scheme = .web := (scheme_kind scheme rest url read).symm.trans web
      rw [with_web scheme rest kind] at read
      obtain ⟨authority, behind, is, same⟩ := authority_sound scheme _ url kind read
      have kept := suffix_sound .web (pathAfterAuthority .web behind).2 _ _ rfl
      rw [finish, kind] at same
      rw [same]
      refine ⟨kind, ⟨authority, rfl, is⟩, ?_, kept.1, kept.2⟩
      rw [String.toList_ofList]
      exact path_after_authority behind

theorem body_stripped (scheme : String) (authority : Authority) (is : IsAuthority scheme authority) (rest : List Char) :
    ('/' :: '/' :: (authority.body ++ rest)).dropWhile isSlash = authority.body ++ rest := by
  have slash : isSlash '/' = true := by decide
  obtain ⟨c, more, starts⟩ := List.exists_cons_of_ne_nil (body_nonempty scheme authority is)
  have first := (body_members scheme authority is c (starts ▸ List.mem_cons_self)).2
  have other : isSlash c = false := by
    simp only [List.mem_cons, List.not_mem_nil, or_false, not_or] at first
    simp [isSlash, first]
  rw [List.dropWhile_cons_of_pos slash, List.dropWhile_cons_of_pos slash, starts, List.cons_append,
    List.dropWhile_cons_of_neg (by rw [other]; exact Bool.false_ne_true)]

theorem text_parts (authority : Authority) (hosted : url.authority = some authority) :
    url.text.toList = url.scheme.toList ++ ':' :: '/' :: '/' :: (authority.body ++ (url.path.toList ++ url.suffix)) := by
  simp [text, beforePath, hosted, Authority.text, Authority.body, suffix]

theorem text_visible (normal : IsNormal url) : ∀ c ∈ url.text.toList, Visible c := by
  obtain ⟨authority, hosted, is⟩ := normal.authority
  have schemes : ∀ scheme ∈ webSchemes, scheme.toList.all (fun c => decide (Visible c)) = true :=
    members_checked _ _ rfl
  have separators : ∀ c ∈ [':', '/', '/'], Visible c := members_checked _ _ rfl
  intro c member
  rw [text_parts url authority hosted] at member
  rcases List.mem_append.mp member with name | behind
  · exact members_checked _ _ (schemes url.scheme ((web_iff url.scheme).mp normal.web)) c name
  · rcases List.mem_append.mp (show c ∈ [':', '/', '/'] ++ (authority.body ++ (url.path.toList ++ url.suffix)) from behind)
      with between | later
    · exact separators c between
    · rcases List.mem_append.mp later with body | rest
      · exact (body_members url.scheme authority is c body).1
      · rcases List.mem_append.mp rest with path | last
        · exact path_visible _ normal.path c path
        · exact suffix_visible url normal.query normal.fragment c last

-- Behind an authority that is read back any path is read, gaps left out.
theorem parse_behind_authority (scheme text : String) (authority : Authority) (is : IsAuthority scheme authority)
    (web : kindOf scheme = .web) (rest : List Char)
    (chars : trimmed text = scheme.toList ++ ':' :: '/' :: '/' :: (authority.body ++ '/' :: rest)) :
    parse text =
      .ok (finish scheme (some authority) (pathAfterAuthority .web ('/' :: withoutGaps rest)).1.path
        (pathAfterAuthority .web ('/' :: withoutGaps rest)).2) := by
  have found : scheme? (trimmed text) = some (scheme, '/' :: '/' :: (authority.body ++ '/' :: rest)) := by
    rw [chars, scheme_read scheme web]
  have body := without_gaps_visible authority.body fun c member => (body_members scheme authority is c member).1
  have plain : withoutGaps ('/' :: '/' :: (authority.body ++ '/' :: rest)) =
      '/' :: '/' :: (withoutGaps authority.body ++ '/' :: withoutGaps rest) := by
    simp [withoutGaps, isGap]
  rw [parse_scheme _ _ _ found, with_web scheme _ web, plain, body, body_stripped scheme authority is,
    authority_again scheme authority is _ web]

theorem normal_parse (normal : IsNormal url) : parse url.text = .ok url := by
  obtain ⟨authority, hosted, is⟩ := normal.authority
  have visible := text_visible url normal
  have parts := text_parts url authority hosted
  obtain ⟨path, split⟩ := path_starts _ normal.path
  rw [split, List.cons_append] at parts
  have behind : withoutGaps (path ++ url.suffix) = path ++ url.suffix := by
    apply without_gaps_visible
    intro c member
    apply visible c
    rw [parts]
    simp [List.mem_append.mp member]
  have read := parse_behind_authority url.scheme url.text authority is normal.web (path ++ url.suffix)
    ((trimmed_visible url.text visible).trans parts)
  have kind : kindOf url.scheme = .web := normal.web
  have last := suffix_again url normal.query normal.fragment
  rw [read, behind, ← List.cons_append, ← split, printed_after_authority _ url.suffix normal.path (suffix_starts url),
    finish, kind, last, String.ofList_toList, ← hosted]

end Whole

end Devnet.Url
