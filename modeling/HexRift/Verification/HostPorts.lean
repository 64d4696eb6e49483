import HexRift.Model.Url
import HexRift.Verification.Texts
import Mathlib.Data.List.TakeWhile

/-! # Readers of `host:port`

A `dest` is split in three places: to check it, to derive a server name from it, and to write a
masquerade URL, which is split again when it is checked. -/

namespace HexRift

open Checks

/-! ## What the field type accepts -/

/-- The two spellings of a host and a port. -/
inductive HostSpelling (text host portStr : List Char) : Prop
  | bracketed (shape : text = '[' :: host ++ ']' :: ':' :: portStr) (free : ']' ∉ host)
      (address : Python.isIpAddress host = true)
  | plain (shape : text = host ++ ':' :: portStr) (port_free : ':' ∉ portStr)
      (start : text.head? ≠ some '[') (free : ':' ∉ host) (name : host.all isDnsNameChar = true)

theorem parseHostPort_eq_ok {value : String} {parts : String × ℕ}
    (h : parseHostPort value = .ok parts) :
    parts.1 ≠ "" ∧ 1 ≤ parts.2 ∧ parts.2 ≤ 65535 ∧
      ∃ portStr, HostSpelling value.toList parts.1.toList portStr := by
  obtain ⟨host, port⟩ := parts
  have hfinish : ∀ {cs portStr : List Char} {p : ℤ}, HostSpelling value.toList cs portStr →
      cs ≠ [] → 1 ≤ p ∧ p ≤ 65535 →
      (pure (String.ofList cs, p.toNat) : Except Error (String × ℕ)) = .ok (host, port) →
      host ≠ "" ∧ 1 ≤ port ∧ port ≤ 65535 ∧
        ∃ portStr, HostSpelling value.toList host.toList portStr := by
    intro cs portStr p hspelling hcs hrange heq
    cases heq
    refine ⟨fun hempty => hcs ?_, by omega, by omega, portStr, ?_⟩
    · simpa using congrArg String.toList hempty
    · rwa [String.toList_ofList]
  by_cases hstart : value.toList.head? = some '['
  · simp only [parseHostPort, hstart, if_true] at h
    cases hpart : Python.partition ']' value.toList.tail with
    | none =>
        rw [hpart] at h
        cases h
    | some p =>
        simp only [hpart] at h
        split at h
        · rename_i portStr hrest
          simp only [pure_bind] at h
          split at h
          · cases h
          · rename_i hcs
            split at h
            · cases h
            · rename_i haddress
              obtain ⟨hshape, hfree⟩ := Python.partition_eq_some (a := p.1) hpart
              have hspelling : HostSpelling value.toList p.1 portStr := by
                refine .bracketed ?_ hfree (by simpa using haddress)
                rw [← hrest, List.cons_append, ← hshape, List.cons_head?_tail hstart]
              split at h
              · cases h
              · split at h
                · rename_i hrange
                  exact hfinish hspelling hcs hrange h
                · cases h
        · cases h
  · simp only [parseHostPort, hstart, if_false] at h
    cases hpart : Python.rpartition ':' value.toList with
    | none =>
        rw [hpart] at h
        cases h
    | some p =>
        simp only [hpart] at h
        split at h
        · cases h
        · rename_i hfree
          simp only [pure_bind] at h
          split at h
          · cases h
          · rename_i hcs
            split at h
            · cases h
            · rename_i hname
              obtain ⟨hshape, hport⟩ := Python.rpartition_eq_some (a := p.1) hpart
              have hspelling : HostSpelling value.toList p.1 p.2 :=
                .plain hshape hport hstart hfree (by simpa using hname)
              split at h
              · cases h
              · split at h
                · rename_i hrange
                  exact hfinish hspelling hcs hrange h
                · cases h

/-! ## Characters of a network location -/

def isNetlocChar (c : Char) : Bool := isDnsNameChar c || c = ':' || c = '[' || c = ']'

theorem isAscii_of_isNetlocChar {c : Char} (h : isNetlocChar c = true) :
    Python.isAscii c = true := by
  simp only [isNetlocChar, isDnsNameChar, isIdentifierChar, Bool.or_eq_true, decide_eq_true_eq,
    or_assoc, Python.isAlphanum_iff] at h
  rw [Python.isAscii, decide_eq_true_eq]
  rcases h with h | h | h | rfl | rfl | rfl | rfl | rfl | rfl
  · omega
  · omega
  · omega
  all_goals decide

/-- What no character of a network location is. -/
structure NetlocChar (c : Char) : Prop where
  delimiter : Python.isNetlocDelimiter c = false
  blank : Python.isC0OrSpace c = false
  white : isWhiteSpace c = false
  userinfo : c ≠ '@'
  zone : c ≠ '%'

instance (c : Char) : Decidable (NetlocChar c) :=
  decidable_of_iff (Python.isNetlocDelimiter c = false ∧ Python.isC0OrSpace c = false ∧
      isWhiteSpace c = false ∧ c ≠ '@' ∧ c ≠ '%')
    ⟨fun ⟨a, b, c, d, e⟩ => ⟨a, b, c, d, e⟩, fun ⟨a, b, c, d, e⟩ => ⟨a, b, c, d, e⟩⟩

theorem netlocChar_of_isNetlocChar {c : Char} (h : isNetlocChar c = true) : NetlocChar c := by
  have hascii : ∀ n < 0x80, isNetlocChar (Char.ofNat n) = true → NetlocChar (Char.ofNat n) := by
    decide +kernel
  have hlt := isAscii_of_isNetlocChar h
  rw [Python.isAscii, decide_eq_true_eq] at hlt
  have hc := hascii c.toNat hlt
  rw [Char.ofNat_toNat] at hc
  exact hc h

theorem isDnsNameChar_of_isHexDigit {c : Char} (h : Python.isHexDigit c = true) :
    isDnsNameChar c = true := by
  have halnum : c.isAlphanum = true := by
    simp only [Python.isHexDigit, Bool.or_eq_true, Bool.and_eq_true, decide_eq_true_eq,
      or_assoc, Char.le_def, UInt32.le_iff_toNat_le, Char.isDigit_iff_toNat] at h
    have hval : c.val.toNat = c.toNat := rfl
    rw [Python.isAlphanum_iff]
    rcases h with h | ⟨hlow, hhigh⟩ | ⟨hlow, hhigh⟩
    · exact .inr (.inr h)
    · exact .inr (.inl ⟨hlow, Nat.le_trans hhigh (by decide)⟩)
    · exact .inl ⟨hlow, Nat.le_trans hhigh (by decide)⟩
  rw [isDnsNameChar, isIdentifierChar, halnum]
  rfl

/-- A host in brackets is made of the characters the pattern has there. -/
theorem HostPort.bracketed_chars (value : HostPort) {host portStr : List Char}
    (hshape : value.val.toList = '[' :: host ++ ']' :: ':' :: portStr) (hfree : ']' ∉ host) :
    ∀ c ∈ host, Python.isHexDigit c = true ∨ c = ':' ∨ c = '.' := by
  have hpattern := value.pattern
  rw [hostPortPattern] at hpattern
  cases hpart : Python.rpartition ':' value.val.toList with
  | none =>
      rw [hpart] at hpattern
      cases hpattern
  | some p =>
      obtain ⟨hsplit, -⟩ := Python.rpartition_eq_some (a := p.1) hpart
      simp only [hpart, Bool.and_eq_true] at hpattern
      obtain ⟨-, hhost⟩ := hpattern
      split at hhost
      · rename_i inner hinner
        simp only [Bool.and_eq_true, decide_eq_true_eq, List.all_eq_true, Bool.or_eq_true] at hhost
        obtain ⟨⟨hlast, -⟩, hchars⟩ := hhost
        have hends : inner = inner.dropLast ++ [']'] :=
          (List.dropLast_append_getLast? ']' hlast).symm
        have hbracket : ']' ∉ inner.dropLast := fun hmem => by
          have hc := hchars ']' hmem
          exact absurd hc (by decide)
        have heq : '[' :: host ++ ']' :: ':' :: portStr =
            '[' :: inner.dropLast ++ ']' :: ':' :: p.2 := by
          rw [← hshape, hsplit, hinner, hends]
          simp
        have hsame := (Separator.cons_append_inj_left hfree hbracket (List.cons.inj heq).2).1
        exact fun c hc => or_assoc.mp (hchars c (hsame ▸ hc))
      · rename_i hstart
        rw [hshape] at hsplit
        cases hhead : p.1 with
        | nil =>
            rw [hhead] at hsplit
            exact absurd (List.cons.inj hsplit).1 (by decide)
        | cons c cs =>
            rw [hhead] at hsplit
            exact absurd (by rw [hhead, ← (List.cons.inj hsplit).1]) (hstart cs)

/-- What a validated host is, in brackets or not. -/
structure HostRead (host : List Char) : Prop where
  ne_nil : host ≠ []
  chars : ∀ c ∈ host, isDnsNameChar c = true ∨ c = ':'
  address : ':' ∈ host → Python.isIpAddress host = true ∧ host.head? ≠ some 'v'

theorem HostPort.hostPort_eq (value : HostPort) : parseHostPort value.val = .ok value.hostPort := by
  unfold HostPort.hostPort
  split
  · assumption
  · rename_i e herr
    have hok := value.parses
    rw [herr] at hok
    cases hok

theorem HostPort.hostRead (value : HostPort) : HostRead value.hostPort.1.toList := by
  obtain ⟨hne, -, -, portStr, hspelling⟩ := parseHostPort_eq_ok value.hostPort_eq
  have hnil : value.hostPort.1.toList ≠ [] := fun h => hne (String.toList_inj.mp h)
  cases hspelling with
  | bracketed hshape hfree haddress =>
      have hchars := value.bracketed_chars hshape hfree
      refine ⟨hnil, fun c hc => ?_, fun _ => ⟨haddress, fun hhead => ?_⟩⟩
      · rcases hchars c hc with hhex | hcolon | hdot
        · exact .inl (isDnsNameChar_of_isHexDigit hhex)
        · exact .inr hcolon
        · exact .inl (by rw [hdot]; decide)
      · exact absurd (hchars 'v' (List.mem_of_head? hhead)) (by decide)
  | plain hshape _ _ hfree hname =>
      exact ⟨hnil, fun c hc => .inl (List.all_eq_true.mp hname c hc), fun h => absurd h hfree⟩

theorem HostPort.extractHost_eq (value : HostPort) :
    extractHost value.val = .ok value.hostPort.1 := by
  obtain ⟨-, -, -, portStr, hspelling⟩ := parseHostPort_eq_ok value.hostPort_eq
  cases hspelling with
  | bracketed hshape hfree _ =>
      rw [List.cons_append] at hshape
      rw [extractHost, hshape]
      simp only [Python.partition_append hfree, String.ofList_toList]
  | plain hshape hport hstart _ _ =>
      rw [extractHost]
      split
      · rename_i rest heq
        rw [heq] at hstart
        exact absurd rfl hstart
      · rw [hshape, Python.rpartition_append_cons hport]
        simp

/-! ## The literal in brackets -/

theorem Python.mem_of_mem_intercalate {sep : List Char} {texts : List (List Char)} {c : Char}
    (h : c ∈ sep.intercalate texts) : c ∈ sep ∨ ∃ text ∈ texts, c ∈ text := by
  induction texts with
  | nil => cases h
  | cons text texts ih =>
      cases texts with
      | nil =>
          rw [List.intercalate_singleton] at h
          exact .inr ⟨text, List.mem_cons_self, h⟩
      | cons next texts =>
          rw [List.intercalate_cons_cons, List.mem_append, List.mem_append] at h
          rcases h with (h | h) | h
          · exact .inr ⟨text, List.mem_cons_self, h⟩
          · exact .inl h
          · rcases ih h with h | ⟨other, hother, h⟩
            · exact .inl h
            · exact .inr ⟨other, List.mem_cons_of_mem text hother, h⟩

theorem Python.isIPv4Address_of_colon {s : List Char} (h : ':' ∈ s) :
    Python.isIPv4Address s = false := by
  cases hip : Python.isIPv4Address s with
  | false => rfl
  | true =>
      simp only [Python.isIPv4Address, Bool.and_eq_true, List.all_eq_true] at hip
      have hjoin : ['.'].intercalate (s.splitOn '.') = s := List.intercalate_splitOn '.'
      rw [← hjoin] at h
      rcases Python.mem_of_mem_intercalate h with h | ⟨octet, hoctet, h⟩
      · exact absurd h (by decide)
      · have hdigits := hip.2 octet hoctet
        simp only [Python.isOctet, Bool.and_eq_true, List.all_eq_true] at hdigits
        exact absurd (hdigits.1.1.1.2 ':' h) (by decide)

/-! ## The URL -/

/-- The host as a URL spells it. -/
def urlHost (host : List Char) : List Char := if ':' ∈ host then '[' :: host ++ [']'] else host

/-- The port as a URL spells it. -/
def urlPort (port : ℕ) : List Char := if port = 443 then [] else ':' :: (toString port).toList

theorem masqueradeUrl_eq_ok {dest : String} {parts : String × ℕ}
    (h : parseHostPort dest = .ok parts) :
    ∃ url, masqueradeUrl dest = .ok url ∧
      url.toList = "https://".toList ++ (urlHost parts.1.toList ++ urlPort parts.2) := by
  rw [masqueradeUrl, h]
  refine ⟨_, rfl, ?_⟩
  simp only [urlHost, urlPort]
  split <;> split <;> simp

/-- The URL of a host and a port, split. -/
def urlParts (host : List Char) (port : ℕ) : Python.SplitResult where
  scheme := "https".toList
  netloc := urlHost host ++ urlPort port
  path := []
  query := []
  fragment := []

section Netloc

variable {host : List Char} {port : ℕ}

theorem HostRead.netloc_chars (hhost : HostRead host) :
    ∀ c ∈ urlHost host ++ urlPort port, isNetlocChar c = true := by
  have hchar : ∀ c ∈ host, isNetlocChar c = true := by
    intro c hc
    rcases hhost.chars c hc with h | rfl
    · rw [isNetlocChar, h]
      rfl
    · rfl
  have hdigit : ∀ c : Char, c.isDigit = true → isNetlocChar c = true := by
    intro c hc
    have hhex : Python.isHexDigit c = true := by
      rw [Python.isHexDigit, hc]
      rfl
    rw [isNetlocChar, isDnsNameChar_of_isHexDigit hhex]
    rfl
  intro c hc
  rcases List.mem_append.mp hc with hc | hc
  · rw [urlHost] at hc
    split at hc
    · simp only [List.cons_append, List.mem_cons, List.mem_append, List.not_mem_nil,
        or_false] at hc
      rcases hc with rfl | hc | rfl
      · rfl
      · exact hchar c hc
      · rfl
    · exact hchar c hc
  · rw [urlPort] at hc
    split at hc
    · cases hc
    · rcases List.mem_cons.mp hc with rfl | hc
      · rfl
      · exact hdigit c (Separator.isDigit_toString hc)

theorem HostRead.isAscii (hhost : HostRead host) : host.all Python.isAscii = true := by
  refine List.all_eq_true.mpr fun c hc => isAscii_of_isNetlocChar ?_
  rcases hhost.chars c hc with h | rfl
  · rw [isNetlocChar, h]
    rfl
  · rfl

theorem HostRead.free (hhost : HostRead host) {c : Char} (hname : isDnsNameChar c = false)
    (hcolon : c ≠ ':') : c ∉ host := by
  intro hmem
  rcases hhost.chars c hmem with h | h
  · rw [hname] at h
    cases h
  · exact hcolon h

theorem colon_of_mem_urlPort {c : Char} (h : c ∈ urlPort port) (hdigit : c.isDigit = false) :
    c = ':' := by
  rw [urlPort] at h
  split at h
  · cases h
  · rcases List.mem_cons.mp h with rfl | h
    · rfl
    · rw [Separator.isDigit_toString h] at hdigit
      cases hdigit

theorem head?_urlPort : urlPort port = [] ∨ (urlPort port).head? = some ':' := by
  rw [urlPort]
  split
  · exact .inl rfl
  · exact .inr rfl

theorem HostRead.withoutUserinfo_eq (hhost : HostRead host) :
    Python.withoutUserinfo (urlHost host ++ urlPort port) = urlHost host ++ urlPort port := by
  have hfree : '@' ∉ urlHost host ++ urlPort port := fun hmem =>
    (netlocChar_of_isNetlocChar (hhost.netloc_chars '@' hmem)).userinfo rfl
  rw [Python.withoutUserinfo, Python.rpartition_eq_none hfree]
  rfl

theorem HostRead.checkNetloc_eq (hhost : HostRead host) (unicode : Python.Unicode) :
    Python.checkNetloc unicode (urlHost host ++ urlPort port) = .ok () := by
  have hascii : (urlHost host ++ urlPort port).all Python.isAscii = true :=
    List.all_eq_true.mpr fun c hc => isAscii_of_isNetlocChar (hhost.netloc_chars c hc)
  by_cases hcolon : ':' ∈ host
  · have hbracketed : Python.checkBracketedNetloc (urlHost host ++ urlPort port) = .ok () := by
      obtain ⟨haddress, hhead⟩ := hhost.address hcolon
      have hclose : ']' ∉ host := hhost.free (by decide) (by decide)
      have hopen : Python.partition '[' ('[' :: (host ++ ']' :: urlPort port)) =
          some ([], host ++ ']' :: urlPort port) := Python.partition_append List.not_mem_nil
      rw [Python.checkBracketedNetloc, hhost.withoutUserinfo_eq, urlHost, if_pos hcolon]
      simp only [List.cons_append, List.append_assoc, List.nil_append, hopen,
        Python.partition_append hclose, Option.getD_some, bind_eq_ok, ensure_eq_ok,
        head?_urlPort, Python.checkBracketedHost, if_neg hhead, haddress,
        Python.isIPv4Address_of_colon hcolon, and_self, exists_const]
    have hopen : '[' ∈ urlHost host ++ urlPort port := by simp [urlHost, hcolon]
    have hclose : ']' ∈ urlHost host ++ urlPort port := by simp [urlHost, hcolon]
    simp only [Python.checkNetloc, hopen, hclose, if_true, hbracketed, bind_eq_ok, ensure_eq_ok,
      hascii, true_or, exists_const, and_self]
  · have hfree : ∀ c : Char, isDnsNameChar c = false → c ≠ ':' → c.isDigit = false →
        c ∉ urlHost host ++ urlPort port := by
      intro c hname hne hdigit hmem
      rw [urlHost, if_neg hcolon] at hmem
      rcases List.mem_append.mp hmem with hmem | hmem
      · exact hhost.free hname hne hmem
      · exact hne (colon_of_mem_urlPort hmem hdigit)
    have hopen := hfree '[' (by decide) (by decide) (by decide)
    have hclose := hfree ']' (by decide) (by decide) (by decide)
    simp only [Python.checkNetloc, hopen, hclose, if_false, bind_eq_ok, ensure_eq_ok, hascii,
      true_or, exists_const, and_self]

theorem HostRead.hostinfo_eq (hhost : HostRead host) :
    (urlParts host port).hostinfo =
      (host, if port = 443 then none else some (toString port).toList) := by
  have hend : ∀ {text : List Char}, text = (if port = 443 then [] else (toString port).toList) →
      (host, if text = [] then none else some text) =
        (host, if port = 443 then none else some (toString port).toList) := by
    rintro text rfl
    have hne := Separator.toString_ne_empty port
    by_cases hport : port = 443
    · simp [hport]
    · rw [if_neg hport, if_neg hport, if_neg hne]
  rw [Python.SplitResult.hostinfo, urlParts, hhost.withoutUserinfo_eq]
  by_cases hcolon : ':' ∈ host
  · have hclose : ']' ∉ host := hhost.free (by decide) (by decide)
    have hopen : Python.partition '[' ('[' :: (host ++ ']' :: urlPort port)) =
        some ([], host ++ ']' :: urlPort port) := Python.partition_append List.not_mem_nil
    rw [urlHost, if_pos hcolon]
    simp only [List.cons_append, List.append_assoc, List.nil_append, hopen,
      Python.partition_append hclose, Option.getD_some]
    apply hend
    rw [urlPort]
    split
    · rfl
    · rw [Python.partition, if_pos rfl]
      rfl
  · have hopen : '[' ∉ urlHost host ++ urlPort port := by
      intro hmem
      rw [urlHost, if_neg hcolon] at hmem
      rcases List.mem_append.mp hmem with hmem | hmem
      · exact hhost.free (by decide) (by decide) hmem
      · exact absurd (colon_of_mem_urlPort hmem (by decide)) (by decide)
    have hparts : (Python.partition ':' (urlHost host ++ urlPort port)).getD
        (urlHost host ++ urlPort port, []) =
          (host, if port = 443 then [] else (toString port).toList) := by
      rw [urlHost, if_neg hcolon, urlPort]
      split
      · rw [List.append_nil, Python.partition_eq_none hcolon]
        rfl
      · rw [Python.partition_append hcolon]
        rfl
    simp only [Python.partition_eq_none hopen, hparts]
    exact hend rfl

theorem HostRead.hostname_eq (hhost : HostRead host) (unicode : Python.Unicode) :
    (urlParts host port).hostname unicode = some (unicode.lower host) := by
  have hzone : '%' ∉ host := hhost.free (by decide) (by decide)
  simp only [Python.SplitResult.hostname, hhost.hostinfo_eq, if_neg hhost.ne_nil,
    Python.partition_eq_none hzone]

theorem HostRead.port_eq (hhost : HostRead host) (hle : port ≤ 65535) :
    (urlParts host port).port = .ok (if port = 443 then none else some (port : ℤ)) := by
  have hdigits : (toString port).toList.all Char.isDigit = true :=
    List.all_eq_true.mpr fun c hc => Separator.isDigit_toString hc
  have hrange : 0 ≤ (port : ℤ) ∧ (port : ℤ) ≤ 65535 := by omega
  rw [Python.SplitResult.port, hhost.hostinfo_eq]
  by_cases hport : port = 443
  · rw [if_pos hport, if_pos hport]
  · simp only [if_neg hport, hdigits, if_true, Python.int_toString, if_pos hrange]

theorem HostRead.urlsplit_eq (hhost : HostRead host) (unicode : Python.Unicode) :
    Python.urlsplit unicode ("https://".toList ++ (urlHost host ++ urlPort port)) =
      .ok (urlParts host port) := by
  have hclean : ∀ c ∈ urlHost host ++ urlPort port, NetlocChar c :=
    fun c hc => netlocChar_of_isNetlocChar (hhost.netloc_chars c hc)
  have hcheck : Python.checkNetloc unicode (urlHost host ++ urlPort port) = .ok () :=
    hhost.checkNetloc_eq unicode
  rw [urlParts]
  generalize urlHost host ++ urlPort port = netloc at hclean hcheck ⊢
  have hstart : "https://".toList = "https".toList ++ ':' :: ['/', '/'] := by decide
  have hkeep : ∀ c ∈ "https://".toList ++ netloc, (c ≠ '\t' && c ≠ '\r' && c ≠ '\n') = true := by
    intro c hc
    rcases List.mem_append.mp hc with hc | hc
    · exact List.all_eq_true.mp (by decide : "https://".toList.all
        (fun c => c ≠ '\t' && c ≠ '\r' && c ≠ '\n') = true) c hc
    · have hblank := (hclean c hc).blank
      simp only [ne_eq, decide_not, Bool.and_eq_true, Bool.not_eq_true', decide_eq_false_iff_not]
      refine ⟨⟨?_, ?_⟩, ?_⟩ <;> rintro rfl <;> exact absurd hblank (by decide)
  have hblank : ("https://".toList ++ netloc).dropWhile Python.isC0OrSpace =
      "https://".toList ++ netloc := List.dropWhile_cons_of_neg (by decide)
  have hscheme : Python.splitScheme ("https://".toList ++ netloc) =
      ("https".toList, '/' :: '/' :: netloc) := by
    have hcolon : ':' ∉ "https".toList := by decide
    rw [Python.splitScheme, hstart, List.append_assoc, List.cons_append,
      Python.partition_append hcolon]
    rfl
  have hnetloc : ∀ c ∈ netloc, (!Python.isNetlocDelimiter c) = true := fun c hc => by
    rw [(hclean c hc).delimiter]
    rfl
  have htake : netloc.takeWhile (fun c => !Python.isNetlocDelimiter c) = netloc := by
    rw [List.takeWhile_eq_self_iff]
    exact hnetloc
  have hdrop : netloc.dropWhile (fun c => !Python.isNetlocDelimiter c) = [] := by
    rw [List.dropWhile_eq_nil_iff]
    exact hnetloc
  rw [Python.urlsplit, hblank, List.filter_eq_self.mpr hkeep, hscheme]
  simp only [htake, hdrop, hcheck]
  rfl

end Netloc

theorem HostRead.isMasqueradeUrl_eq_true {host : List Char} {port : ℕ}
    (hhost : HostRead host) (unicode : Python.Unicode) (hpos : 1 ≤ port) (hle : port ≤ 65535)
    {url : String} (hurl : url.toList = "https://".toList ++ (urlHost host ++ urlPort port)) :
    isMasqueradeUrl unicode url = true := by
  have hne : urlHost host ++ urlPort port ≠ [] := by
    intro hnil
    have hhead := (List.append_eq_nil_iff.mp hnil).1
    rw [urlHost] at hhead
    split at hhead
    · cases hhead
    · exact hhost.ne_nil hhead
  have hpattern : masqueradeUrlPattern url = true := by
    have hdrop : url.toList.drop "https://".length = urlHost host ++ urlPort port := by
      rw [hurl]
      exact List.drop_left
    rw [masqueradeUrlPattern, List.any_eq_true]
    refine ⟨"https://", by decide, ?_⟩
    rw [hdrop]
    simp only [Bool.and_eq_true, Python.startswith_iff, hurl, List.prefix_append, decide_eq_true_eq,
      List.all_eq_true, true_and]
    refine ⟨hne, fun c hc => ?_⟩
    rw [(netlocChar_of_isNetlocChar (hhost.netloc_chars c hc)).white]
    rfl
  have hvalid : validateMasqueradeUrl unicode url = .ok url := by
    have hname : unicode.lower host ≠ [] := by
      rw [unicode.lower_ascii host hhost.isAscii]
      exact fun h => hhost.ne_nil (List.map_eq_nil_iff.mp h)
    have hport : (if port = 443 then none else some (port : ℤ)) ≠ some 0 := by
      split
      · exact fun h => nomatch h
      · intro h
        have hzero := Option.some.inj h
        omega
    rw [validateMasqueradeUrl, hurl, hhost.urlsplit_eq unicode]
    refine bind_eq_ok.mpr ⟨_, rfl, ?_⟩
    rw [hhost.hostname_eq unicode, hhost.port_eq hle]
    refine bind_eq_ok.mpr ⟨(), ensure_eq_ok.mpr hname, ?_⟩
    refine bind_eq_ok.mpr ⟨_, rfl, ?_⟩
    exact bind_eq_ok.mpr ⟨(), ensure_eq_ok.mpr hport, rfl⟩
  rw [isMasqueradeUrl, hpattern, hvalid]
  rfl

/-- A `host:port` is read the same wherever it is split: the server name derived from it is its
host, and the masquerade URL written from it is one the field type accepts and splits into that
host and port again. -/
theorem host_port_readers_agree (unicode : Python.Unicode) (value : HostPort) :
    extractHost value.val = .ok value.hostPort.1 ∧
      ∃ url, masqueradeUrl value.val = .ok url ∧ isMasqueradeUrl unicode url = true ∧
        ∃ parts, Python.urlsplit unicode url.toList = .ok parts ∧
          parts.hostname unicode = some (value.hostPort.1.toList.map Char.toLower) ∧
          ∃ port, parts.port = .ok port ∧ port.getD 443 = value.hostPort.2 := by
  obtain ⟨-, hpos, hle, -⟩ := parseHostPort_eq_ok value.hostPort_eq
  obtain ⟨url, hok, hurl⟩ := masqueradeUrl_eq_ok value.hostPort_eq
  have hhost := value.hostRead
  rw [← unicode.lower_ascii _ hhost.isAscii]
  refine ⟨value.extractHost_eq, url, hok, hhost.isMasqueradeUrl_eq_true unicode hpos hle hurl, _,
    by rw [hurl, hhost.urlsplit_eq unicode], hhost.hostname_eq unicode, _, hhost.port_eq hle, ?_⟩
  split
  · rename_i hport
    rw [hport]
    rfl
  · rfl

end HexRift
