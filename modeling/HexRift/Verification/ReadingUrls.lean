import HexRift.Library.Codes
import HexRift.Model.Query
import HexRift.Verification.HostPorts
import HexRift.Verification.Merging
import HexRift.Verification.Sharing

/-! # Share URLs read back

A share URL is written out for a client to read. `urlsplit` and `parse_qsl` get every part of it
back, however the parts are spelled. -/

namespace HexRift

open Checks Codes

/-! ## Quoted texts -/

namespace Python

variable {safe : List Char} {c : Char} {s : String}

/-- A character that `quote` can write. -/
def isQuotedChar (safe : List Char) (c : Char) : Bool := isUnreserved c || c = '%' || c ∈ safe

theorem hexValue?_hexDigit {n : ℕ} (h : n < 16) : hexValue? (hexDigit n).toUpper = some n := by
  have hall : ∀ n < 16, hexValue? (hexDigit n).toUpper = some n := by decide
  exact hall n h

theorem isUnreserved_hexDigit {n : ℕ} (h : n < 16) :
    isUnreserved (hexDigit n).toUpper = true := by
  have hall : ∀ n < 16, isUnreserved (hexDigit n).toUpper = true := by decide
  exact hall n h

theorem reads_quoteByte (b : UInt8) : Reads unquoteToBytes quoteByte (fun b => [b]) b := by
  intro rest
  have hlt : b.toNat < 256 := b.toNat_lt
  have hhigh : b.toNat / 16 < 16 := by omega
  have hlow : b.toNat % 16 < 16 := by omega
  have hvalue : 16 * (b.toNat / 16) + b.toNat % 16 = b.toNat := Nat.div_add_mod _ _
  rw [quoteByte, List.cons_append, List.cons_append, List.cons_append, List.nil_append,
    unquoteToBytes, hexValue?_hexDigit hhigh, hexValue?_hexDigit hlow]
  simp only [hvalue, UInt8.ofNat_toNat]
  rfl

theorem unquoteToBytes_cons (h : c ≠ '%') (rest : List Char) :
    unquoteToBytes (c :: rest) = String.utf8EncodeChar c ++ unquoteToBytes rest := by
  rw [unquoteToBytes]
  rintro high low rest' rfl
  exact absurd rfl h

theorem reads_quoteChar (hsafe : '%' ∉ safe) (c : Char) :
    Reads unquoteToBytes (quoteChar safe) String.utf8EncodeChar c := by
  intro rest
  rw [quoteChar]
  split
  · rename_i hplain
    refine unquoteToBytes_cons ?_ rest
    rintro rfl
    rw [Bool.or_eq_true, decide_eq_true_iff] at hplain
    rcases hplain with hplain | hplain
    · exact absurd hplain (by decide)
    · exact hsafe hplain
  · refine (read_flatMap_append (fun b _ => reads_quoteByte b) rest).trans ?_
    rw [List.flatMap_singleton']

/-- What `quote` writes, `unquote` reads. -/
theorem unquote_quote (hsafe : '%' ∉ safe) (s : String) :
    unquote (quote safe s).toList = some s := by
  have hbytes : unquoteToBytes (quote safe s).toList = s.toList.flatMap String.utf8EncodeChar := by
    rw [quote, String.toList_ofList]
    exact read_flatMap (fun c _ => reads_quoteChar hsafe c) rfl
  have hutf8 : (s.toList.flatMap String.utf8EncodeChar).toByteArray = s.toByteArray :=
    String.utf8Encode_toList
  rw [unquote, hbytes, hutf8, String.fromUTF8?, dif_pos s.isValidUTF8]
  rfl

theorem quote_chars {c : Char} (hc : c ∈ (quote safe s).toList) : isQuotedChar safe c = true := by
  rw [quote, String.toList_ofList] at hc
  obtain ⟨d, -, hc⟩ := List.mem_flatMap.mp hc
  rw [quoteChar] at hc
  split at hc
  · rename_i hplain
    rw [List.mem_singleton] at hc
    subst hc
    rw [Bool.or_eq_true] at hplain
    rw [isQuotedChar, Bool.or_eq_true, Bool.or_eq_true]
    exact hplain.imp_left .inl
  · obtain ⟨b, -, hc⟩ := List.mem_flatMap.mp hc
    have hlt : b.toNat < 256 := b.toNat_lt
    rw [isQuotedChar]
    simp only [quoteByte, List.mem_cons, List.not_mem_nil, or_false] at hc
    rcases hc with rfl | rfl | rfl
    · rfl
    · rw [isUnreserved_hexDigit (by omega)]
      rfl
    · rw [isUnreserved_hexDigit (by omega)]
      rfl

theorem quote_eq_nil_iff : (quote safe s).toList = [] ↔ s = "" := by
  rw [quote, String.toList_ofList, List.flatMap_eq_nil_iff]
  constructor
  · intro h
    refine String.toList_eq_nil_iff.mp (List.eq_nil_iff_forall_not_mem.mpr fun c hc => ?_)
    have hnil := h c hc
    rw [quoteChar] at hnil
    split at hnil
    · cases hnil
    · obtain ⟨b, hb⟩ := List.exists_mem_of_ne_nil _ (show String.utf8EncodeChar c ≠ [] by
        intro hempty
        have hlength := String.length_utf8EncodeChar c
        rw [hempty] at hlength
        exact absurd c.utf8Size_pos (by rw [← hlength]; exact Nat.lt_irrefl 0))
      cases List.flatMap_eq_nil_iff.mp hnil b hb
  · rintro rfl
    simp

/-! ## Queries -/

/-- Which characters a text may keep without meeting a delimiter of a URL. -/
structure SafeSet (safe : List Char) : Prop where
  percent : '%' ∉ safe
  field : '&' ∉ safe
  value : '=' ∉ safe
  plus : '+' ∉ safe
  query : '?' ∉ safe
  fragment : '#' ∉ safe
  ascii : ∀ c ∈ safe, isAscii c = true ∧ c ≠ '\t' ∧ c ≠ '\r' ∧ c ≠ '\n'

theorem quote_free (hsafe : c ∉ safe) (hplain : isUnreserved c = false) (hpercent : c ≠ '%') :
    c ∉ (quote safe s).toList := by
  intro hc
  have hquoted := quote_chars hc
  rw [isQuotedChar, hplain, decide_eq_false hpercent, decide_eq_false hsafe] at hquoted
  cases hquoted

theorem map_plusToSpace (hsafe : SafeSet safe) (s : String) :
    (quote safe s).toList.map plusToSpace = (quote safe s).toList := by
  have hplus : '+' ∉ (quote safe s).toList := quote_free hsafe.plus (by decide) (by decide)
  have hkept : ∀ c ∈ (quote safe s).toList, plusToSpace c = c := by
    intro c hc
    refine if_neg ?_
    rintro rfl
    exact hplus hc
  exact (List.map_congr_left hkept).trans (List.map_id _)

theorem parseField_quote (hsafe : SafeSet safe) (field : String × String) :
    parseField (quote safe field.1 ++ "=" ++ quote safe field.2).toList =
      some (if field.2 = "" then none else some field) := by
  have hname : '=' ∉ (quote safe field.1).toList :=
    quote_free hsafe.value (by decide) (by decide)
  have hsplit : partition '=' (quote safe field.1 ++ "=" ++ quote safe field.2).toList =
      some ((quote safe field.1).toList, (quote safe field.2).toList) := by
    rw [String.toList_append, String.toList_append, List.append_assoc]
    exact partition_append hname
  rw [parseField, hsplit]
  cases hvalue : (quote safe field.2).toList with
  | nil => rw [if_pos (quote_eq_nil_iff.mp hvalue)]
  | cons c cs =>
      have hne : field.2 ≠ "" := fun hempty => by
        rw [quote_eq_nil_iff.mpr hempty] at hvalue
        cases hvalue
      rw [if_neg hne]
      simp only [← hvalue, map_plusToSpace hsafe, unquote_quote hsafe.percent]
      rfl

/-- A field of a query as `urlencode` writes it. -/
def fieldText (safe : List Char) (field : String × String) : List Char :=
  (quote safe field.1 ++ "=" ++ quote safe field.2).toList

theorem field_not_mem_fieldText (hsafe : SafeSet safe) (field : String × String) :
    '&' ∉ fieldText safe field := by
  have hquote : ∀ s, '&' ∉ (quote safe s).toList :=
    fun s => quote_free hsafe.field (by decide) (by decide)
  simp only [fieldText, String.toList_append, List.mem_append, hquote, or_false, false_or]
  decide

theorem fieldText_ne_nil (field : String × String) : fieldText safe field ≠ [] := by
  have hvalue : '=' ∈ fieldText safe field := by simp [fieldText]
  exact List.ne_nil_of_mem hvalue

theorem urlencode_toList (safe : List Char) (params : List (String × String)) :
    (urlencode safe params).toList = ['&'].intercalate (params.map (fieldText safe)) := by
  rw [urlencode, String.toList_intercalate, List.map_map]
  rfl

theorem mapM_parseField (hsafe : SafeSet safe) (params : List (String × String)) :
    (params.map (fieldText safe)).mapM parseField =
      some (params.map fun field => if field.2 = "" then none else some field) := by
  induction params with
  | nil => rfl
  | cons field rest ih =>
      rw [List.map_cons, List.mapM_cons, ih, fieldText, parseField_quote hsafe]
      rfl

/-- What `urlencode` writes, `parse_qsl` reads, but for the parameters without a value. -/
theorem parseQsl_urlencode (hsafe : SafeSet safe) (params : List (String × String)) :
    parseQsl (urlencode safe params).toList = some (params.filter (·.2 ≠ "")) := by
  rw [parseQsl, urlencode_toList]
  by_cases hnil : params = []
  · subst hnil
    rfl
  · have hfields : ∀ field ∈ params.map (fieldText safe), '&' ∉ field := by
      intro field hfield
      obtain ⟨p, -, rfl⟩ := List.mem_map.mp hfield
      exact field_not_mem_fieldText hsafe p
    have hkept : (params.map (fieldText safe)).filter (· ≠ []) = params.map (fieldText safe) := by
      refine List.filter_eq_self.mpr fun field hfield => ?_
      obtain ⟨p, -, rfl⟩ := List.mem_map.mp hfield
      exact decide_eq_true (fieldText_ne_nil p)
    rw [List.splitOn_intercalate '&' hfields (by simpa using hnil), hkept, mapM_parseField hsafe]
    refine congrArg some ?_
    rw [List.filterMap_map, ← List.filterMap_eq_filter]
    refine List.filterMap_congr fun field _ => ?_
    by_cases hvalue : field.2 = "" <;> simp [hvalue, Option.guard]

end Python

/-! ## The parts of a URL -/

namespace ShareScheme

def name : ShareScheme → String
  | vless => "vless"
  | hysteria2 => "hysteria2"

/-- The path in front of the query. -/
def path : ShareScheme → List Char
  | vless => []
  | hysteria2 => ['/']

/-- What the query keeps unescaped. -/
def safe : ShareScheme → List Char
  | vless => []
  | hysteria2 => [':']

theorem safeSet (scheme : ShareScheme) : Python.SafeSet scheme.safe := by
  cases scheme with
  | vless => constructor <;> simp [safe]
  | hysteria2 => constructor <;> simp [safe, Python.isAscii]

end ShareScheme

namespace ShareUrl

variable (url : ShareUrl)

def netloc : List Char :=
  url.identity.str.toList ++ '@' :: (url.host.toList ++ ':' :: (toString url.port).toList)

def query : List Char := (Python.urlencode url.scheme.safe url.params).toList

def quotedFragment : List Char := (Python.quote [] url.fragment).toList

/-- What follows the network location. -/
def tail : List Char := url.scheme.path ++ '?' :: (url.query ++ '#' :: url.quotedFragment)

/-- The URL, split. -/
def split : Python.SplitResult where
  scheme := url.scheme.name.toList
  netloc := url.netloc
  path := url.scheme.path
  query := url.query
  fragment := url.quotedFragment

theorem text_toList :
    url.text.toList = url.scheme.name.toList ++ ':' :: '/' :: '/' :: (url.netloc ++ url.tail) := by
  rw [text]
  cases hscheme : url.scheme with
  | vless =>
      simp [netloc, tail, query, quotedFragment, hscheme, ShareScheme.name, ShareScheme.path,
        ShareScheme.safe]
  | hysteria2 =>
      simp [netloc, tail, query, quotedFragment, hscheme, ShareScheme.name, ShareScheme.path,
        ShareScheme.safe]

end ShareUrl

/-! ## Network locations -/

theorem exists_digit_of_mem_toDigits {n : ℕ} {c : Char} (h : c ∈ Nat.toDigits 16 n) :
    ∃ d < 16, c = d.digitChar := by
  induction n using Nat.strong_induction_on with
  | _ n ih =>
      by_cases hlt : n < 16
      · rw [Nat.toDigits_of_lt_base hlt, List.mem_singleton] at h
        exact ⟨n, hlt, h⟩
      · rw [Nat.toDigits_of_base_le (by omega) (by omega), List.mem_append,
          List.mem_singleton] at h
        rcases h with hhigh | hlow
        · exact ih (n / 16) (by omega) hhigh
        · exact ⟨n % 16, Nat.mod_lt n (by omega), hlow⟩

theorem isDnsNameChar_digitChar {d : ℕ} (h : d < 16) : isDnsNameChar d.digitChar = true := by
  have hall : ∀ d < 16, isDnsNameChar d.digitChar = true := by decide
  exact hall d h

theorem isDnsNameChar_of_mem_hexField {width n : ℕ} {c : Char}
    (h : c ∈ (hexField width n).toList) : isDnsNameChar c = true := by
  rw [hexField, String.toList_ofList, List.mem_append] at h
  rcases h with hzero | hdigit
  · rw [(List.mem_replicate.mp hzero).2]
    decide
  · obtain ⟨d, hd, rfl⟩ := exists_digit_of_mem_toDigits hdigit
    exact isDnsNameChar_digitChar hd

theorem isDnsNameChar_of_mem_str {u : UUID} {c : Char} (h : c ∈ u.str.toList) :
    isDnsNameChar c = true := by
  rw [UUID.str, String.toList_intercalate] at h
  rcases Python.mem_of_mem_intercalate h with hsep | ⟨field, hfield, hc⟩
  · rw [show "-".toList = ['-'] from rfl, List.mem_singleton] at hsep
    rw [hsep]
    decide
  · simp only [List.map_cons, List.map_nil, List.mem_cons, List.not_mem_nil, or_false] at hfield
    rcases hfield with rfl | rfl | rfl | rfl | rfl
    all_goals exact isDnsNameChar_of_mem_hexField hc

namespace ShareUrl

variable {url : ShareUrl}

/-- The host is a DNS name and the port a port. -/
structure Reachable (url : ShareUrl) : Prop where
  host_ne : url.host ≠ ""
  host : ∀ c ∈ url.host.toList, isDnsNameChar c = true
  port : url.port ≤ 65535

theorem Reachable.netloc_chars (hurl : url.Reachable) {c : Char} (hc : c ∈ url.netloc) :
    isDnsNameChar c = true ∨ c = ':' ∨ c = '@' := by
  simp only [netloc, List.mem_append, List.mem_cons] at hc
  rcases hc with hidentity | rfl | hhost | rfl | hport
  · exact .inl (isDnsNameChar_of_mem_str hidentity)
  · exact .inr (.inr rfl)
  · exact .inl (hurl.host c hhost)
  · exact .inr (.inl rfl)
  · have hdigit := Separator.isDigit_toString hport
    refine .inl ?_
    simp [isDnsNameChar, isIdentifierChar, Char.isAlphanum, hdigit]

/-- No character of the network location ends it, and all are kept as they are. -/
theorem Reachable.netloc_char (hurl : url.Reachable) {c : Char} (hc : c ∈ url.netloc) :
    Python.isAscii c = true ∧ Python.isNetlocDelimiter c = false ∧
      Python.isC0OrSpace c = false := by
  rcases hurl.netloc_chars hc with hname | rfl | rfl
  · have hnetloc : isNetlocChar c = true := by
      rw [isNetlocChar, hname]
      rfl
    have hclean := netlocChar_of_isNetlocChar hnetloc
    exact ⟨isAscii_of_isNetlocChar hnetloc, hclean.delimiter, hclean.blank⟩
  · decide
  · decide

theorem Reachable.not_mem_netloc (hurl : url.Reachable) {c : Char}
    (hname : isDnsNameChar c = false) (hcolon : c ≠ ':') (huser : c ≠ '@') : c ∉ url.netloc := by
  intro hc
  rcases hurl.netloc_chars hc with hc | hc | hc
  · rw [hname] at hc
    cases hc
  · exact hcolon hc
  · exact huser hc

theorem Reachable.not_mem_host (hurl : url.Reachable) {c : Char}
    (hname : isDnsNameChar c = false) : c ∉ url.host.toList := by
  intro hc
  rw [hurl.host c hc] at hname
  cases hname

theorem Reachable.checkNetloc_eq (hurl : url.Reachable) (unicode : Python.Unicode) :
    Python.checkNetloc unicode url.netloc = .ok () := by
  have hopen : '[' ∉ url.netloc := hurl.not_mem_netloc (by decide) (by decide) (by decide)
  have hclose : ']' ∉ url.netloc := hurl.not_mem_netloc (by decide) (by decide) (by decide)
  have hascii : url.netloc.all Python.isAscii = true :=
    List.all_eq_true.mpr fun c hc => (hurl.netloc_char hc).1
  simp only [Python.checkNetloc, hopen, hclose, if_false, bind_eq_ok, ensure_eq_ok, hascii,
    true_or, exists_const, and_self]

theorem hostPort_free (hurl : url.Reachable) :
    '@' ∉ url.host.toList ++ ':' :: (toString url.port).toList := by
  simp only [List.mem_append, List.mem_cons, not_or]
  refine ⟨hurl.not_mem_host (by decide), by decide, fun hc => ?_⟩
  exact absurd (Separator.isDigit_toString hc) (by decide)

theorem Reachable.rpartition_netloc (hurl : url.Reachable) :
    Python.rpartition '@' url.netloc =
      some (url.identity.str.toList, url.host.toList ++ ':' :: (toString url.port).toList) :=
  Python.rpartition_append_cons (hostPort_free hurl)

theorem Reachable.username_eq (hurl : url.Reachable) :
    url.split.username = some url.identity.str.toList := by
  have hcolon : ':' ∉ url.identity.str.toList := by
    intro hc
    exact absurd (isDnsNameChar_of_mem_str hc) (by decide)
  have hnetloc : url.split.netloc = url.netloc := rfl
  simp only [Python.SplitResult.username, hnetloc, hurl.rpartition_netloc, Option.map_some,
    Python.partition_eq_none hcolon, Option.elim_none]

theorem Reachable.hostinfo_eq (hurl : url.Reachable) :
    url.split.hostinfo = (url.host.toList, some (toString url.port).toList) := by
  have hinfo : Python.withoutUserinfo url.netloc =
      url.host.toList ++ ':' :: (toString url.port).toList := by
    rw [Python.withoutUserinfo, hurl.rpartition_netloc]
    rfl
  have hopen : '[' ∉ url.host.toList ++ ':' :: (toString url.port).toList := by
    simp only [List.mem_append, List.mem_cons, not_or]
    refine ⟨hurl.not_mem_host (by decide), by decide, fun hc => ?_⟩
    exact absurd (Separator.isDigit_toString hc) (by decide)
  have hcolon : ':' ∉ url.host.toList := hurl.not_mem_host (by decide)
  rw [Python.SplitResult.hostinfo, split, hinfo]
  simp only [Python.partition_eq_none hopen, Python.partition_append hcolon, Option.getD_some,
    if_neg (Separator.toString_ne_empty url.port)]

theorem Reachable.hostname_eq (hurl : url.Reachable) (unicode : Python.Unicode) :
    url.split.hostname unicode = some (url.host.toList.map Char.toLower) := by
  have hzone : '%' ∉ url.host.toList := hurl.not_mem_host (by decide)
  have hne : url.host.toList ≠ [] := fun hnil => hurl.host_ne (String.toList_eq_nil_iff.mp hnil)
  have hascii : url.host.toList.all Python.isAscii = true := by
    refine List.all_eq_true.mpr fun c hc => (hurl.netloc_char ?_).1
    simp [netloc, hc]
  simp only [Python.SplitResult.hostname, hurl.hostinfo_eq, if_neg hne,
    Python.partition_eq_none hzone, unicode.lower_ascii _ hascii]

theorem Reachable.port_eq (hurl : url.Reachable) : url.split.port = .ok (some (url.port : ℤ)) := by
  have hdigits : (toString url.port).toList.all Char.isDigit = true :=
    List.all_eq_true.mpr fun c hc => Separator.isDigit_toString hc
  have hport := hurl.port
  have hrange : 0 ≤ (url.port : ℤ) ∧ (url.port : ℤ) ≤ 65535 := by omega
  rw [Python.SplitResult.port, hurl.hostinfo_eq]
  simp only [hdigits, if_true, Python.int_toString, if_pos hrange]

/-! ## The split -/

theorem query_free (url : ShareUrl) {c : Char} (hsafe : c ∉ url.scheme.safe)
    (hplain : Python.isUnreserved c = false) (hpercent : c ≠ '%') (hfield : c ≠ '&')
    (hvalue : c ≠ '=') : c ∉ url.query := by
  intro hc
  rw [query, Python.urlencode_toList] at hc
  rcases Python.mem_of_mem_intercalate hc with hsep | ⟨field, hmem, hc⟩
  · exact hfield (List.mem_singleton.mp hsep)
  · obtain ⟨p, -, rfl⟩ := List.mem_map.mp hmem
    simp only [Python.fieldText, String.toList_append, List.mem_append,
      Python.quote_free hsafe hplain hpercent, or_false, false_or] at hc
    rw [show "=".toList = ['='] from rfl, List.mem_singleton] at hc
    exact hvalue hc

theorem Reachable.not_mem_text (hurl : url.Reachable) {c : Char}
    (hblank : Python.isC0OrSpace c = true) (hplain : Python.isUnreserved c = false) :
    c ∉ url.text.toList := by
  have hother : ∀ {d}, Python.isC0OrSpace d = false → c ≠ d := by
    rintro d hd rfl
    rw [hblank] at hd
    cases hd
  have hname : ∀ d ∈ url.scheme.name.toList ++ url.scheme.path ++ url.scheme.safe,
      Python.isC0OrSpace d = false := by
    intro d hd
    have hall : (url.scheme.name.toList ++ url.scheme.path ++ url.scheme.safe).all
        (fun d => !Python.isC0OrSpace d) = true := by
      cases url.scheme <;> decide
    exact (Bool.not_eq_true' _).mp (List.all_eq_true.mp hall d hd)
  have hsafe : c ∉ url.scheme.safe := fun hc =>
    hother (hname c (List.mem_append_right _ hc)) rfl
  have hfragment : c ∉ url.quotedFragment :=
    Python.quote_free List.not_mem_nil hplain (hother (by decide))
  have hquery : c ∉ url.query := query_free url hsafe hplain (hother (by decide))
    (hother (by decide)) (hother (by decide))
  intro hc
  simp only [text_toList, tail, List.mem_append, List.mem_cons, hfragment, hquery, or_false,
    false_or] at hc
  rcases hc with hc | rfl | rfl | rfl | hc | hc | rfl | rfl
  · exact hother (hname c (List.mem_append_left _ (List.mem_append_left _ hc))) rfl
  · cases hblank
  · cases hblank
  · cases hblank
  · exact hother (hurl.netloc_char hc).2.2 rfl
  · exact hother (hname c (List.mem_append_left _ (List.mem_append_right _ hc))) rfl
  · cases hblank
  · cases hblank

/-- A character that the split would drop is none of the text. -/
theorem Reachable.text_kept (hurl : url.Reachable) {c : Char} (hc : c ∈ url.text.toList) :
    (c ≠ '\t' && c ≠ '\r' && c ≠ '\n') = true := by
  simp only [ne_eq, decide_not, Bool.and_eq_true, Bool.not_eq_true', decide_eq_false_iff_not]
  refine ⟨⟨?_, ?_⟩, ?_⟩
  all_goals
    rintro rfl
    exact hurl.not_mem_text (by decide) (by decide) hc

theorem Reachable.urlsplit_eq (hurl : url.Reachable) (unicode : Python.Unicode) :
    Python.urlsplit unicode url.text.toList = .ok url.split := by
  have hhead : url.text.toList.dropWhile Python.isC0OrSpace = url.text.toList := by
    rw [text_toList]
    cases url.scheme <;> exact List.dropWhile_cons_of_neg (by decide)
  have hkept : url.text.toList.filter (fun c => c ≠ '\t' && c ≠ '\r' && c ≠ '\n') =
      url.text.toList := List.filter_eq_self.mpr fun c hc => hurl.text_kept hc
  have hscheme : Python.splitScheme url.text.toList =
      (url.scheme.name.toList, '/' :: '/' :: (url.netloc ++ url.tail)) := by
    have hcolon : ':' ∉ url.scheme.name.toList := by cases url.scheme <;> decide
    rw [text_toList, Python.splitScheme, Python.partition_append hcolon]
    cases url.scheme <;> rfl
  have hnetloc : ∀ c ∈ url.netloc, (!Python.isNetlocDelimiter c) = true := fun c hc => by
    rw [(hurl.netloc_char hc).2.1]
    rfl
  have htail : ∃ c cs, url.tail = c :: cs ∧ (!Python.isNetlocDelimiter c) = false := by
    rw [tail]
    cases url.scheme with
    | vless => exact ⟨_, _, rfl, by decide⟩
    | hysteria2 => exact ⟨_, _, rfl, by decide⟩
  obtain ⟨c, cs, htail, hend⟩ := htail
  have htake : (url.netloc ++ url.tail).takeWhile (fun c => !Python.isNetlocDelimiter c) =
      url.netloc := by
    rw [htail, List.takeWhile_append_of_pos hnetloc, List.takeWhile_cons_of_neg (by simp [hend]),
      List.append_nil]
  have hdrop : (url.netloc ++ url.tail).dropWhile (fun c => !Python.isNetlocDelimiter c) =
      url.tail := by
    rw [htail, List.dropWhile_append_of_pos hnetloc, List.dropWhile_cons_of_neg (by simp [hend])]
  have hfragment : Python.partition '#' url.tail =
      some (url.scheme.path ++ '?' :: url.query, url.quotedFragment) := by
    have hfree : '#' ∉ url.scheme.path ++ '?' :: url.query := by
      have hquery : '#' ∉ url.query := query_free url (url.scheme.safeSet.fragment) (by decide)
        (by decide) (by decide) (by decide)
      simp only [List.mem_append, List.mem_cons, hquery, or_false, not_or]
      exact ⟨by cases url.scheme <;> decide, by decide⟩
    have happend := Python.partition_append (b := url.quotedFragment) hfree
    rwa [List.append_assoc, List.cons_append] at happend
  have hquery : Python.partition '?' (url.scheme.path ++ '?' :: url.query) =
      some (url.scheme.path, url.query) :=
    Python.partition_append (by cases url.scheme <;> decide)
  rw [Python.urlsplit, hhead, hkept, hscheme]
  simp only [htake, hdrop, hurl.checkNetloc_eq, hfragment, hquery, Option.getD_some]
  rfl

/-- What reading the text of a URL finds in it: all of it, but for parameters without a value. -/
structure ReadBack (unicode : Python.Unicode) (url : ShareUrl) (parts : Python.SplitResult) :
    Prop where
  scheme : parts.scheme = url.scheme.name.toList
  username : parts.username = some url.identity.str.toList
  hostname : parts.hostname unicode = some (url.host.toList.map Char.toLower)
  port : parts.port = .ok (some (url.port : ℤ))
  params : Python.parseQsl parts.query = some (url.params.filter (·.2 ≠ ""))
  fragment : Python.unquote parts.fragment = some url.fragment

theorem Reachable.readBack (hurl : url.Reachable) (unicode : Python.Unicode) :
    ReadBack unicode url url.split where
  scheme := rfl
  username := hurl.username_eq
  hostname := hurl.hostname_eq unicode
  port := hurl.port_eq
  params := Python.parseQsl_urlencode url.scheme.safeSet url.params
  fragment := Python.unquote_quote List.not_mem_nil url.fragment

end ShareUrl

/-! ## What is handed out -/

section HandedOut

variable {cfg : ConglomerateConfig} {crypto : Crypto} {store : KeyStore}

theorem DnsName.reachable {url : ShareUrl} (name : DnsName) (hhost : url.host = name.val)
    (hport : url.port ≤ 65535) : url.Reachable where
  host_ne := hhost ▸ name.ne_empty
  host := hhost ▸ List.all_eq_true.mp name.charset
  port := hport

theorem nodeShareUrl_reachable {region : HubRegion} {node : HubNode} {keys : NodeKeys}
    {client : ShareClient} {kind : ShareKind} {url : ShareUrl}
    (h : nodeShareUrl (hubEnv crypto cfg region node keys) client kind = .ok (some url)) :
    url.Reachable := by
  cases kind with
  | direct =>
      simp only [nodeShareUrl, XhttpContext.shareUrl, bind_eq_ok, pure_eq_ok,
        Option.some.injEq] at h
      obtain ⟨_, -, _, ⟨_, -, rfl⟩, rfl⟩ := h
      exact DnsName.reachable node.hostname rfl (show 443 ≤ 65535 by decide)
  | cdn =>
      simp only [nodeShareUrl, bind_eq_ok, pure_eq_ok, Option.map_eq_some_iff] at h
      obtain ⟨slot, hslot, ctx, rfl, rfl⟩ := h
      obtain ⟨cdn, path, -, -, rfl⟩ := (buildCdn_eq_some (p := (region, node))).mp hslot
      exact DnsName.reachable cdn.hubDomain rfl (show 443 ≤ 65535 by decide)
  | hysteria =>
      simp only [nodeShareUrl, bind_eq_ok, pure_eq_ok, Option.map_eq_some_iff] at h
      obtain ⟨_, -, ctx, -, rfl⟩ := h
      exact DnsName.reachable node.hostname rfl ctx.config.port.le

theorem shareUrlsOf_reachable {user : User} {req : ShareRequest} {fingerprint : String}
    {cdn hysteria : Bool} {urls : List (String × ShareUrl)}
    (hurls : shareUrlsOf crypto cfg store fingerprint cdn hysteria user req = .ok urls) :
    ∀ e ∈ urls, e.2.Reachable := by
  obtain ⟨kind, i, shortId, pairs, -, -, -, -, -, hresults⟩ := shareUrlsOf_eq_ok hurls
  intro e he
  have hshared : ∃ p, SharedFrom crypto cfg store (i.resolved crypto.uuid5 cfg.ns) shortId
      fingerprint kind p e.2 := by
    cases kind with
    | cdn =>
        simp only [kindShareUrls, cdnShareUrls, bind_eq_ok] at hresults
        obtain ⟨_, -, hresults⟩ := hresults
        obtain ⟨p, -, hfrom⟩ := sharedFrom_cdn hresults he
        exact ⟨p, hfrom⟩
    | hysteria =>
        obtain ⟨p, -, hfrom⟩ := sharedFrom_hysteria hresults he
        exact ⟨p, hfrom⟩
    | direct =>
        obtain ⟨p, -, -, hfrom⟩ := mem_directShareUrlsFrom hresults he
        exact ⟨p, hfrom⟩
  obtain ⟨p, keys, fragment, -, hurl⟩ := hshared
  exact nodeShareUrl_reachable hurl

/-- Whatever `build_share_urls` hands out is read back from its text, the parameters in their
order and every character of them as it was. -/
theorem share_urls_read_back (unicode : Python.Unicode) {req : ShareRequest} {fingerprint : String}
    {cdn hysteria : Bool} {urls : List (String × ShareUrl)}
    (h : buildShareUrls crypto cfg store req fingerprint cdn hysteria = .ok urls) :
    ∀ e ∈ urls, ∃ parts, Python.urlsplit unicode e.2.text.toList = .ok parts ∧
      e.2.ReadBack unicode parts := by
  intro e he
  obtain ⟨user, huser⟩ := resolveUser_of_perIdentity h
  obtain ⟨one, -, part, hpart, hmem⟩ := (mem_perIdentity huser h).mp he
  have hurl := shareUrlsOf_reachable hpart e hmem
  exact ⟨e.2.split, hurl.urlsplit_eq unicode, hurl.readBack unicode⟩

namespace Sample

/-- Tables that hold for texts of ASCII alone. -/
def asciiTables : Python.Unicode where
  lower := List.map Char.toLower
  safeNetloc := fun netloc => netloc.all Python.isAscii
  lower_ascii := fun _ _ => rfl

end Sample

theorem share_urls_read_back_office :
    ∃ urls, buildShareUrls Sample.officeCrypto Sample.office.toConglomerateConfig
        Sample.officeStore { username := "alice", allGuests := true } "chrome" = .ok urls ∧
      urls ≠ [] ∧ ∀ e ∈ urls, ∃ parts,
        Python.urlsplit Sample.asciiTables e.2.text.toList = .ok parts ∧
          e.2.ReadBack Sample.asciiTables parts := by
  obtain ⟨urls, h⟩ := isOk_iff.mp (show (buildShareUrls Sample.officeCrypto
    Sample.office.toConglomerateConfig Sample.officeStore
    { username := "alice", allGuests := true } "chrome").isOk = true by decide)
  refine ⟨urls, h, ?_, share_urls_read_back Sample.asciiTables h⟩
  rintro rfl
  revert h
  decide

end HandedOut

end HexRift
