import Devnet.Probe.Run
import Devnet.Proofs.Url.Rooted

set_option autoImplicit false

namespace Devnet.Probe

theorem endpoint_error_iff (base : Url) (path : String) (rooted : Url.IsRooted path) (e : ProbeError) :
    endpoint base path = .error e ↔ base.IsOpaque ∧ e = .invalidUrl path .relativeToVerbatim := by
  have joined := base.join_rooted_error_iff path rooted
  rw [Url.opaque_iff, endpoint]
  cases join : base.join path with
  | ok url =>
      have hierarchical : ¬ base.isVerbatim = true := by
        intro verbatim
        have refused := (joined .relativeToVerbatim).mpr ⟨verbatim, rfl⟩
        rw [join] at refused
        cases refused
      simp [hierarchical]
  | error cause =>
      obtain ⟨verbatim, same⟩ := (joined cause).mp join
      simp [verbatim, same, eq_comm]

theorem account_endpoints_rooted : ∀ path ∈ accountEndpoints, Url.IsRooted path :=
  members_checked _ _ rfl

theorem endpoint_ok_iff (base url : Url) (path : String) : endpoint base path = .ok url ↔ base.join path = .ok url := by
  rw [endpoint]
  cases base.join path <;> simp

theorem endpoint_keeps_node (text : String) (base : Url) (read : Url.parse text = .ok base) :
    (base.scheme = "http" ∨ base.scheme = "https" → ∀ path, Url.IsRooted path →
      ∃ url, endpoint base path = .ok url ∧ url.scheme = base.scheme ∧ url.authority = base.authority ∧
        Url.parse (base.upToPath ++ path) = .ok url ∧
        ∀ otherText other, Url.parse otherText = .ok other → other.scheme = base.scheme →
          other.authority = base.authority → endpoint other path = .ok url) ∧
    ∀ path ∈ accountEndpoints,
      ((∃ cause, endpoint base path = .error (.invalidUrl path cause)) ↔ base.IsOpaque) ∧
        ∀ e, endpoint base path = .error e → e = .invalidUrl path .relativeToVerbatim := by
  constructor
  · intro http path rooted
    have web := Url.http_web base.scheme http
    have normal := Url.parse_normal base text web read
    obtain ⟨authority, hosted, _⟩ := normal.authority
    obtain ⟨url, joined, scheme, kept⟩ := Url.join_rooted base normal path rooted
    have parsed := (Url.join_rooted_parse base normal path rooted).symm.trans joined
    refine ⟨url, (endpoint_ok_iff base url path).mpr joined, scheme, kept, parsed, ?_⟩
    intro otherText other otherRead otherScheme otherAuthority
    have otherNormal := Url.parse_normal other otherText (otherScheme ▸ web : Url.kindOf other.scheme = .web) otherRead
    rw [endpoint_ok_iff, Url.join_rooted_parse other otherNormal path rooted,
      Url.up_to_path_same base other authority hosted otherScheme otherAuthority, parsed]
  · intro path member
    have failed := endpoint_error_iff base path (account_endpoints_rooted path member)
    refine ⟨⟨?_, ?_⟩, fun e fails => ((failed e).mp fails).2⟩
    · intro refused
      obtain ⟨cause, fails⟩ := refused
      exact ((failed _).mp fails).1
    · intro verbatim
      exact ⟨.relativeToVerbatim, (failed _).mpr ⟨verbatim, rfl⟩⟩

def crookedBase : String := "httpS:\\us er:p@[0:0::1]:443\\rpc/../x y/?y=1#z"

def crookedPath : String := "/\t.\n/a\\..\\b c?q=\x22#f#\r\n "

theorem endpoint_keeps_node_crooked :
    (∃ url, endpoint ⟨"https", some ⟨"us%20er", "p", .ipv6 [0, 0, 0, 0, 0, 0, 0, 1], none⟩, "/x%20y/", some "y=1", some "z"⟩
        crookedPath = .ok url ∧
      endpoint ⟨"https", some ⟨"us%20er", "p", .ipv6 [0, 0, 0, 0, 0, 0, 0, 1], none⟩, "/", none, none⟩ crookedPath =
        .ok url ∧ url.text = "https://us%20er:p@[::1]/b%20c?q=%22#f#") ∧
    endpoint ⟨"mailto", none, "a@b", none, none⟩ "/version" = .error (.invalidUrl "/version" .relativeToVerbatim) := by
  have crooked : Url.parse crookedBase =
      .ok ⟨"https", some ⟨"us%20er", "p", .ipv6 [0, 0, 0, 0, 0, 0, 0, 1], none⟩, "/x%20y/", some "y=1", some "z"⟩ := by
    decide +kernel
  have plain : Url.parse "https://us%20er:p@[::1]" =
      .ok ⟨"https", some ⟨"us%20er", "p", .ipv6 [0, 0, 0, 0, 0, 0, 0, 1], none⟩, "/", none, none⟩ := by
    decide +kernel
  have mail : Url.parse "mailto:a@b" = .ok ⟨"mailto", none, "a@b", none, none⟩ := by decide +kernel
  constructor
  · obtain ⟨url, joined, _, _, _, anyBase⟩ :=
      (endpoint_keeps_node crookedBase _ crooked).1 (.inr rfl) crookedPath (by decide +kernel)
    refine ⟨url, joined, anyBase "https://us%20er:p@[::1]" _ plain rfl rfl, ?_⟩
    have spelled : (endpoint ⟨"https", some ⟨"us%20er", "p", .ipv6 [0, 0, 0, 0, 0, 0, 0, 1], none⟩, "/x%20y/",
        some "y=1", some "z"⟩ crookedPath).map Url.text = .ok "https://us%20er:p@[::1]/b%20c?q=%22#f#" := by
      decide +kernel
    rw [joined] at spelled
    exact Except.ok.inj spelled
  · obtain ⟨refused, named⟩ := (endpoint_keeps_node "mailto:a@b" _ mail).2 "/version" (by decide)
    obtain ⟨cause, fails⟩ := refused.mpr (by decide +kernel)
    rw [fails, named _ fails]

end Devnet.Probe
