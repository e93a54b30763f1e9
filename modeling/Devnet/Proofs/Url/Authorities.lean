import Devnet.Proofs.Url.Hosts
import Devnet.Url.Printer

set_option autoImplicit false

namespace Devnet.Url

section Userinfo

theorem last_at (front behind : List Char) (apart : '@' ∉ behind) :
    lastAt? (front ++ '@' :: behind) = some front.length := by
  have taken : (front ++ '@' :: behind).reverse.takeWhile (· ≠ '@') = behind.reverse := by
    rw [List.reverse_append, List.reverse_cons, List.append_assoc, List.takeWhile_append_of_pos]
    · simp
    · intro c member
      have other : c ≠ '@' := fun same => apart (same ▸ List.mem_reverse.mp member)
      simpa using other
  rw [lastAt?, if_pos (by simp), taken, List.length_append, List.length_cons, List.length_reverse]
  congr 1
  omega

theorem no_at (text : List Char) (apart : '@' ∉ text) : lastAt? text = none := by
  rw [lastAt?, if_neg fun member => apart (List.contains_iff_mem.mp member)]

def endsAuthority (c : Char) : Bool := ['/', '?', '#'].contains c || (c == '\\' && Kind.web.isSpecial)

theorem ends_authority_iff (c : Char) : endsAuthority c = true ↔ c ∈ ['/', '\\', '?', '#'] := by
  have special : Kind.web.isSpecial = true := rfl
  rw [endsAuthority, special, Bool.and_true, Bool.or_eq_true, beq_iff_eq, List.contains_iff_mem]
  simp only [List.mem_cons, List.not_mem_nil, or_false]
  tauto

theorem take_authority (body rest : List Char) (whole : ∀ c ∈ body, c ∉ ['/', '\\', '?', '#']) :
    (body ++ '/' :: rest).takeWhile (fun c => !endsAuthority c) = body := by
  rw [List.takeWhile_append_of_pos]
  · simp [endsAuthority]
  · intro c member
    have inside : ¬ endsAuthority c = true := fun ends => whole c member ((ends_authority_iff c).mp ends)
    simpa using inside

def encodedInfo (text : List Char) : String := String.ofList (percentEncode keepsInUserinfo text)

theorem encoded_info_kept (text : List Char) : ∀ c ∈ (encodedInfo text).toList, keepsInUserinfo c = true := by
  rw [encodedInfo, String.toList_ofList]
  exact encoded_kept keepsInUserinfo userinfo_keeps text

theorem encoded_info_same (text : String) (kept : ∀ c ∈ text.toList, keepsInUserinfo c = true) :
    encodedInfo text.toList = text := by
  rw [encodedInfo, percent_encode_kept keepsInUserinfo text.toList kept, String.ofList_toList]

theorem userinfo_absent (text : List Char) (found : lastAt? (text.takeWhile fun c => !endsAuthority c) = none) :
    userinfo .web text = .ok ("", "", text) := by
  simp only [endsAuthority] at found
  simp only [userinfo, found]

theorem userinfo_present (text : List Char) (before : Nat)
    (found : lastAt? (text.takeWhile fun c => !endsAuthority c) = some (before + 1)) :
    userinfo .web text =
      .ok (encodedInfo ((text.take (before + 1)).takeWhile (· ≠ ':')),
        encodedInfo (((text.take (before + 1)).dropWhile (· ≠ ':')).drop 1), text.drop (before + 2)) := by
  simp only [endsAuthority] at found
  simp only [userinfo, found, encodedInfo]

theorem userinfo_sound (kind : Kind) (text : List Char) (info : String × String × List Char)
    (read : userinfo kind text = .ok info) :
    (∀ c ∈ info.1.toList, keepsInUserinfo c = true) ∧ ∀ c ∈ info.2.1.toList, keepsInUserinfo c = true := by
  have nothing : ∀ c ∈ "".toList, keepsInUserinfo c = true := fun _ member => (nomatch member)
  unfold userinfo at read
  simp only at read
  split at read
  case h_1 =>
    cases read
    exact ⟨nothing, nothing⟩
  case h_2 =>
    split at read
    · split at read
      · cases read
      · cases read
        exact ⟨nothing, nothing⟩
    · cases read
      exact ⟨nothing, nothing⟩
  case h_3 =>
    cases read
    exact ⟨encoded_info_kept _, encoded_info_kept _⟩

theorem kept_in_userinfo (c : Char) (kept : keepsInUserinfo c = true) : c ∉ ['/', '\\', '?', '#', '@', ':'] := by
  intro member
  have all : ∀ other ∈ ['/', '\\', '?', '#', '@', ':'], keepsInUserinfo other = false := members_checked _ _ rfl
  exact Bool.false_ne_true ((all c member).symm.trans kept)

end Userinfo

section Port

theorem port_sound (text rest : List Char) (found : Option Nat) (read : port text = .ok (found, rest)) :
    ∀ n ∈ found, n ≤ 65535 := by
  unfold port at read
  simp only at read
  generalize text.takeWhile (fun c => (Numeral.digit? 10 c).isSome) = digits at read
  split at read
  case isTrue => cases read
  case isFalse small =>
    have bound : ∀ n ∈ (if digits.isEmpty then none else some ((Numeral.value? 10 digits).getD 0)), n ≤ 65535 := by
      intro n member
      by_cases empty : digits.isEmpty = true
      · rw [if_pos empty] at member
        cases member
      · rw [if_neg empty] at member
        exact Option.some.inj member ▸ Nat.le_of_not_gt small
    split at read
    case h_1 =>
      split at read
      · cases read
        exact bound
      · cases read
    case h_2 =>
      cases read
      exact bound

theorem port_printed (n : Nat) (small : n ≤ 65535) (rest : List Char) :
    port (Numeral.decimalDigits n ++ '/' :: rest) = .ok (some n, '/' :: rest) := by
  have digits : ∀ c ∈ Numeral.decimalDigits n, (Numeral.digit? 10 c).isSome = true := by
    have all : ∀ c ∈ (List.range 10).map Numeral.digitChar, (Numeral.digit? 10 c).isSome = true :=
      members_checked _ _ rfl
    exact fun c member => all c (Numeral.decimal_members n c member)
  have taken : (Numeral.decimalDigits n ++ '/' :: rest).takeWhile (fun c => (Numeral.digit? 10 c).isSome) =
      Numeral.decimalDigits n := by
    rw [List.takeWhile_append_of_pos digits]
    exact List.append_nil _
  have left : (Numeral.decimalDigits n ++ '/' :: rest).dropWhile (fun c => (Numeral.digit? 10 c).isSome) =
      '/' :: rest := List.dropWhile_append_of_pos digits
  have filled : (Numeral.decimalDigits n).isEmpty = false :=
    List.isEmpty_eq_false_iff.mpr (Numeral.decimal_nonempty n)
  simp only [port, taken, left, Numeral.value_of_decimal, Option.getD_some, filled]
  rw [if_neg (by omega)]
  rfl

end Port

structure IsAuthority (scheme : String) (authority : Authority) : Prop where
  username : ∀ c ∈ authority.username.toList, keepsInUserinfo c = true
  password : ∀ c ∈ authority.password.toList, keepsInUserinfo c = true
  host : IsHost authority.host
  port : ∀ n ∈ authority.port, n ≤ 65535 ∧ some n ≠ defaultPort? scheme

def Authority.body (authority : Authority) : List Char :=
  authority.userinfo.toList ++ (authority.host.text.toList ++ authority.portText.toList)

def portBehind (text : List Char) : Except ParseError (Option Nat × List Char) :=
  match text with
  | ':' :: rest => port rest
  | _ => .ok (none, text)

theorem port_behind_plain (text : List Char) (plain : ∀ rest, text = ':' :: rest → False) :
    portBehind text = .ok (none, text) := by
  unfold portBehind
  split
  case h_1 rest => exact (plain rest rfl).elim
  case h_2 => rfl

def unlessDefault (scheme : String) (port : Option Nat) : Option Nat :=
  if port = defaultPort? scheme then none else port

def Authority.info (authority : Authority) : List Char :=
  authority.username.toList ++ (if authority.password = "" then [] else ':' :: authority.password.toList)

theorem info_empty_iff (authority : Authority) :
    authority.info = [] ↔ authority.username = "" ∧ authority.password = "" := by
  rw [Authority.info, List.append_eq_nil_iff, String.toList_eq_nil_iff]
  by_cases absent : authority.password = ""
  · simp [absent]
  · simp [absent]

theorem userinfo_text (authority : Authority) :
    authority.userinfo.toList = if authority.info = [] then [] else authority.info ++ ['@'] := by
  by_cases empty : authority.info = []
  · have both := (info_empty_iff authority).mp empty
    rw [if_pos empty, Authority.userinfo, if_pos both]
    rfl
  · have some_part := fun both => empty ((info_empty_iff authority).mpr both)
    rw [if_neg empty, Authority.userinfo, if_neg some_part, Authority.info]
    by_cases absent : authority.password = ""
    · simp [absent]
    · simp [absent]

theorem port_text (authority : Authority) :
    authority.portText.toList = authority.port.elim [] fun n => ':' :: Numeral.decimalDigits n := by
  rw [Authority.portText]
  cases authority.port with
  | none => rfl
  | some n => simp [Numeral.decimal]

theorem port_text_members (authority : Authority) :
    ∀ c ∈ authority.portText.toList, c ∈ ':' :: (List.range 10).map Numeral.digitChar := by
  intro c member
  rw [port_text] at member
  cases port : authority.port with
  | none =>
      rw [port] at member
      cases member
  | some n =>
      rw [port] at member
      rcases List.mem_cons.mp member with colon | digit
      · exact colon ▸ List.mem_cons_self
      · exact List.mem_cons_of_mem _ (Numeral.decimal_members n c digit)

section Printed

variable (scheme : String) (authority : Authority) (is : IsAuthority scheme authority)
include is

theorem host_and_port_members :
    ∀ c ∈ authority.host.text.toList ++ authority.portText.toList, InHost c := by
  have all : ∀ c ∈ ':' :: (List.range 10).map Numeral.digitChar, InHost c := members_checked _ _ rfl
  intro c member
  rcases List.mem_append.mp member with host | port
  · exact host_members authority.host is.host c host
  · exact all c (port_text_members authority c port)

theorem port_read (rest : List Char) :
    portBehind (authority.portText.toList ++ '/' :: rest) = .ok (authority.port, '/' :: rest) := by
  rw [port_text]
  cases port : authority.port with
  | none => rfl
  | some n => exact port_printed n (is.port n port).1 rest

theorem port_kept : unlessDefault scheme authority.port = authority.port := by
  rw [unlessDefault]
  by_cases same : authority.port = defaultPort? scheme
  · cases port : authority.port with
    | none => exact if_pos (port ▸ same)
    | some n => exact absurd (port ▸ same) (is.port n port).2
  · exact if_neg same

theorem info_members : ∀ c ∈ authority.info, InHost c := by
  have colon : InHost ':' := by decide
  have kept (c : Char) (keeps : keepsInUserinfo c = true) : InHost c :=
    ⟨userinfo_keeps.visible c keeps, fun member => kept_in_userinfo c keeps (List.mem_append_left [':'] member)⟩
  intro c member
  rcases List.mem_append.mp member with name | behind
  · exact kept c (is.username c name)
  · by_cases absent : authority.password = ""
    · rw [if_pos absent] at behind
      cases behind
    · rw [if_neg absent] at behind
      rcases List.mem_cons.mp behind with first | inside
      · exact first ▸ colon
      · exact kept c (is.password c inside)

theorem body_members : ∀ c ∈ authority.body, Visible c ∧ c ∉ ['/', '\\', '?', '#'] := by
  have inside (c : Char) (within : InHost c) : Visible c ∧ c ∉ ['/', '\\', '?', '#'] :=
    ⟨within.1, fun ends => within.2 (List.mem_append_left ['@'] ends)⟩
  intro c member
  rw [Authority.body, userinfo_text] at member
  rcases List.mem_append.mp member with info | behind
  · by_cases empty : authority.info = []
    · rw [if_pos empty] at info
      cases info
    · rw [if_neg empty] at info
      rcases List.mem_append.mp info with part | at_sign
      · exact inside c (info_members scheme authority is c part)
      · rw [List.mem_singleton.mp at_sign]
        decide
  · exact inside c (host_and_port_members scheme authority is c behind)

theorem body_nonempty : authority.body ≠ [] := by
  intro empty
  have behind := (List.append_eq_nil_iff.mp empty).2
  exact host_nonempty authority.host is.host (List.append_eq_nil_iff.mp behind).1

theorem info_parts :
    authority.info.takeWhile (· ≠ ':') = authority.username.toList ∧
      (authority.info.dropWhile (· ≠ ':')).drop 1 = authority.password.toList := by
  have before : ∀ c ∈ authority.username.toList, decide (c ≠ ':') = true := by
    intro c member
    have other : c ≠ ':' := by
      intro same
      exact kept_in_userinfo c (is.username c member) (by rw [same]; decide)
    simpa using other
  rw [Authority.info, List.takeWhile_append_of_pos before, List.dropWhile_append_of_pos before]
  by_cases absent : authority.password = ""
  · simp [absent]
  · simp [absent]

theorem userinfo_read (rest : List Char) :
    userinfo .web (authority.body ++ '/' :: rest) =
      .ok (authority.username, authority.password,
        authority.host.text.toList ++ authority.portText.toList ++ '/' :: rest) := by
  have behind := host_and_port_members scheme authority is
  have front := info_members scheme authority is
  rw [Authority.body, userinfo_text]
  generalize authority.host.text.toList ++ authority.portText.toList = tail at behind
  have outside : '@' ∉ tail := fun member => (behind '@' member).2 (by decide)
  have whole : ∀ c ∈ tail, c ∉ ['/', '\\', '?', '#'] := fun c member ends =>
    (behind c member).2 (List.mem_append_left ['@'] ends)
  by_cases empty : authority.info = []
  · obtain ⟨username, password⟩ := (info_empty_iff authority).mp empty
    have found : lastAt? ((tail ++ '/' :: rest).takeWhile fun c => !endsAuthority c) = none := by
      rw [take_authority tail rest whole, no_at tail outside]
    rw [if_pos empty, List.nil_append, userinfo_absent _ found, username, password]
  · obtain ⟨name, pass⟩ := info_parts scheme authority is
    obtain ⟨c, more, same⟩ := List.exists_cons_of_ne_nil empty
    have length : authority.info.length = more.length + 1 := by rw [same, List.length_cons]
    have inside : ∀ c ∈ authority.info ++ '@' :: tail, c ∉ ['/', '\\', '?', '#'] := by
      intro c member ends
      rcases List.mem_append.mp member with info | later
      · exact (front c info).2 (List.mem_append_left ['@'] ends)
      · rcases List.mem_cons.mp later with first | among
        · exact absurd (first ▸ ends) (by decide)
        · exact whole c among ends
    have found : lastAt? ((authority.info ++ '@' :: tail ++ '/' :: rest).takeWhile fun c => !endsAuthority c) =
        some (more.length + 1) := by
      rw [take_authority _ rest inside, last_at _ tail outside, length]
    have text : authority.info ++ ['@'] ++ tail ++ '/' :: rest = authority.info ++ '@' :: tail ++ '/' :: rest := by simp
    have taken : (authority.info ++ '@' :: tail ++ '/' :: rest).take (more.length + 1) = authority.info := by
      rw [← length, List.append_assoc, List.take_left]
    have left : (authority.info ++ '@' :: tail ++ '/' :: rest).drop (more.length + 2) = tail ++ '/' :: rest := by
      rw [show more.length + 2 = (authority.info ++ ['@']).length by simp [length], ← text, List.append_assoc, List.drop_left]
    rw [if_neg empty, text, userinfo_present _ more.length found, taken, left, name, pass,
      encoded_info_same _ is.username, encoded_info_same _ is.password]

end Printed

section Whole

variable (scheme : String) (text : List Char)

-- The steps of the reader one after the other, with the port read apart.
theorem with_authority_steps :
    withAuthority scheme text =
      (userinfo (kindOf scheme) text).bind fun info =>
        (host (kindOf scheme) (splitHost (kindOf scheme) false info.2.2).1).bind fun found =>
          if found == .name "" && (splitHost (kindOf scheme) false info.2.2).2.head? == some ':' then .error .emptyHost
          else
            (portBehind (splitHost (kindOf scheme) false info.2.2).2).bind fun behind =>
              if found == .name "" && !(info.1 == "" && info.2.1 == "") then .error .emptyHost
              else
                .ok (finish scheme (some ⟨info.1, info.2.1, found, unlessDefault scheme behind.1⟩)
                  (pathAfterAuthority (kindOf scheme) behind.2).1.path (pathAfterAuthority (kindOf scheme) behind.2).2) := by
  unfold withAuthority
  cases read : userinfo (kindOf scheme) text with
  | error cause => simp only [bind, Except.bind, read]
  | ok info =>
      cases named : host (kindOf scheme) (splitHost (kindOf scheme) false info.2.2).1 with
      | error cause => simp only [bind, Except.bind, read, named]
      | ok found =>
          simp only [bind, Except.bind, read, named]
          generalize (splitHost (kindOf scheme) false info.2.2).2 = after
          split
          case isTrue => rfl
          case isFalse =>
            split
            case h_1 _ rest _ =>
              simp only [portBehind]
              cases port rest with
              | error cause => rfl
              | ok behind => rfl
            case h_2 plain =>
              simp only [port_behind_plain after plain]
              rfl

theorem with_authority_parts (url : Url) (read : withAuthority scheme text = .ok url) :
    ∃ info found behind,
      userinfo (kindOf scheme) text = .ok info ∧
      host (kindOf scheme) (splitHost (kindOf scheme) false info.2.2).1 = .ok found ∧
      portBehind (splitHost (kindOf scheme) false info.2.2).2 = .ok behind ∧
      url = finish scheme (some ⟨info.1, info.2.1, found, unlessDefault scheme behind.1⟩)
        (pathAfterAuthority (kindOf scheme) behind.2).1.path (pathAfterAuthority (kindOf scheme) behind.2).2 := by
  rw [with_authority_steps] at read
  cases info : userinfo (kindOf scheme) text with
  | error cause =>
      rw [info] at read
      cases read
  | ok parts =>
      rw [info, Except.bind] at read
      cases named : host (kindOf scheme) (splitHost (kindOf scheme) false parts.2.2).1 with
      | error cause =>
          rw [named] at read
          cases read
      | ok found =>
          simp only [named, Except.bind] at read
          split at read
          case isTrue => cases read
          case isFalse =>
            split at read
            case h_1 => cases read
            case h_2 behind ported =>
              split at read
              case isTrue => cases read
              case isFalse =>
                cases read
                exact ⟨parts, found, behind, rfl, named, ported, rfl⟩

theorem port_behind_sound (behind : List Char) (found : Option Nat × List Char) (read : portBehind behind = .ok found) :
    ∀ n ∈ unlessDefault scheme found.1, n ≤ 65535 ∧ some n ≠ defaultPort? scheme := by
  have small : ∀ n ∈ found.1, n ≤ 65535 := by
    unfold portBehind at read
    split at read
    case h_1 rest => exact port_sound rest found.2 found.1 read
    case h_2 =>
      cases read
      exact fun _ member => (nomatch member)
  intro n member
  rw [unlessDefault] at member
  by_cases same : found.1 = defaultPort? scheme
  · rw [if_pos same] at member
    cases member
  · rw [if_neg same] at member
    exact ⟨small n member, fun default => same (member.trans default)⟩

theorem authority_sound (url : Url) (web : kindOf scheme = .web) (read : withAuthority scheme text = .ok url) :
    ∃ authority rest, IsAuthority scheme authority ∧
      url = finish scheme (some authority) (pathAfterAuthority .web rest).1.path (pathAfterAuthority .web rest).2 := by
  obtain ⟨info, found, behind, user, named, ported, same⟩ := with_authority_parts scheme text url read
  rw [web] at user named ported same
  have kept := userinfo_sound .web text info user
  exact ⟨_, behind.2, ⟨kept.1, kept.2, host_sound _ found named, port_behind_sound scheme _ behind ported⟩, same⟩

theorem authority_again (authority : Authority) (is : IsAuthority scheme authority) (rest : List Char)
    (web : kindOf scheme = .web) :
    withAuthority scheme (authority.body ++ '/' :: rest) =
      .ok (finish scheme (some authority) (pathAfterAuthority .web ('/' :: rest)).1.path
        (pathAfterAuthority .web ('/' :: rest)).2) := by
  have info := userinfo_read scheme authority is rest
  have ends : ∀ c ∈ (authority.portText.toList ++ '/' :: rest).head?, c = ':' ∨ c = '/' := by
    intro c first
    rw [port_text] at first
    cases port : authority.port with
    | none =>
        rw [port] at first
        exact .inr (Option.some.inj first).symm
    | some n =>
        rw [port] at first
        exact .inl (Option.some.inj first).symm
  have cut := host_split authority.host is.host (authority.portText.toList ++ '/' :: rest) ends
  have unnamed : (authority.host == Host.name "") = false := beq_eq_false_iff_ne.mpr (host_named authority.host is.host)
  rw [with_authority_steps, web, info, Except.bind]
  simp only [List.append_assoc, cut, host_again authority.host is.host, Except.bind, unnamed, Bool.false_and,
    port_read scheme authority is, port_kept scheme authority is]
  rfl

end Whole

end Devnet.Url
