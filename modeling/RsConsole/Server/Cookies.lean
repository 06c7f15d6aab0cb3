import RsConsole.Server.Requests

set_option autoImplicit false

/-! # Looking up a cookie

`cookie_value` splits the text of the whole `Cookie` header. Among cookies that were joined by `"; "`
it finds the first with exactly the given name, whatever stands beside it, as long as the header is
text: one octet outside visible ASCII, in any cookie, and no cookie is found. -/

namespace RsConsole

open Library Http

/-! ## Cookies -/

/-- Visible ASCII, or a tab. -/
def isVisible (octet : UInt8) : Bool := (32 ≤ octet && octet < 127) || octet = 9

/-- What the `http` crate documents of `HeaderValue::to_str`: it gives the octets themselves, and
    fails when one of them is neither visible ASCII nor a tab. -/
structure HeaderRules [HttpCrates] : Prop where
  text : HeaderText
  fails_iff : ∀ value, HttpCrates.toStr value = none ↔ ∃ octet ∈ value, isVisible octet = false

/-- ASCII white space. -/
def isSpaceOctet (octet : UInt8) : Bool := octet = 32 || (9 ≤ octet && octet ≤ 13)

/-- No white space at either end. -/
def Trimmed (octets : List UInt8) : Prop :=
  (∀ octet ∈ octets.head?, isSpaceOctet octet = false) ∧
    ∀ octet ∈ octets.getLast?, isSpaceOctet octet = false

instance (octets : List UInt8) : Decidable (Trimmed octets) := inferInstanceAs (Decidable (_ ∧ _))

/-- A name without `=`, `;` or surrounding white space, and a value without `;` or surrounding white
    space. -/
structure Cookie where
  name : List UInt8
  value : List UInt8
  name_valid : 61 ∉ name ∧ 59 ∉ name ∧ Trimmed name
  value_valid : 59 ∉ value ∧ Trimmed value
  deriving DecidableEq

def Cookie.octets (cookie : Cookie) : List UInt8 := cookie.name ++ 61 :: cookie.value

/-- The cookies, joined by `"; "`. -/
def cookieHeader (cookies : List Cookie) : List UInt8 :=
  [59, 32].intercalate (cookies.map Cookie.octets)

/-- The first cookie with exactly that name. -/
def firstNamed (name : String) (cookies : List Cookie) : Option Cookie :=
  cookies.find? (fun cookie => cookie.name = asBytes name)

/-! ## Octets as characters -/

/-- The characters of ASCII octets. -/
def chars (octets : List UInt8) : List Char := octets.map fun octet => Char.ofNat octet.toNat

theorem lt_of_visible {octet : UInt8} (h : isVisible octet = true) : octet.toNat < 128 := by
  simp only [isVisible, Bool.or_eq_true, Bool.and_eq_true, decide_eq_true_eq] at h
  rcases h with ⟨-, hlt⟩ | rfl
  · exact lt_trans (UInt8.lt_iff_toNat_lt.1 hlt) (by decide)
  · decide

section Ascii

variable {octets : List UInt8} (h : ∀ octet ∈ octets, octet.toNat < 128)

include h

theorem mem_chars {octet : UInt8} (hoctet : octet.toNat < 128) :
    Char.ofNat octet.toNat ∈ chars octets ↔ octet ∈ octets := by
  have hnat : ∀ n < 128, (Char.ofNat n).toNat = n := by decide
  refine ⟨fun hmem => ?_, fun hmem => List.mem_map.2 ⟨octet, hmem, rfl⟩⟩
  obtain ⟨octet', hmem', heq⟩ := List.mem_map.1 hmem
  have hsame := congrArg Char.toNat heq
  rw [hnat _ (h octet' hmem'), hnat _ hoctet] at hsame
  exact UInt8.toNat_inj.1 hsame ▸ hmem'

/-- The text of octets without surrounding white space is not changed by `trim`. -/
theorem trim_chars (htrimmed : Trimmed octets) :
    trim (String.ofList (chars octets)) = String.ofList (chars octets) := by
  have hspace : ∀ n < 128, isWhitespace (Char.ofNat n) = isSpaceOctet (UInt8.ofNat n) := by decide
  have hdrop : ∀ cs : List Char, (∀ c, cs.head? = some c → isWhitespace c = false) →
      cs.dropWhile isWhitespace = cs := by
    rintro (_ | ⟨c, cs⟩) hhead
    · rfl
    · exact List.dropWhile_cons_of_neg (by simp [hhead c rfl])
  have hend : ∀ octet ∈ octets, isSpaceOctet octet = false →
      isWhitespace (Char.ofNat octet.toNat) = false := by
    intro octet hmem hfalse
    rw [hspace _ (h octet hmem), UInt8.ofNat_toNat, hfalse]
  have hfirst : ∀ c, (chars octets).head? = some c → isWhitespace c = false := by
    intro c hc
    rw [chars, List.head?_map] at hc
    obtain ⟨octet, hhead, rfl⟩ := Option.map_eq_some_iff.1 hc
    exact hend octet (List.mem_of_mem_head? hhead) (htrimmed.1 octet hhead)
  have hlast : ∀ c, (chars octets).reverse.head? = some c → isWhitespace c = false := by
    intro c hc
    rw [List.head?_reverse, chars, List.getLast?_map] at hc
    obtain ⟨octet, hlast, rfl⟩ := Option.map_eq_some_iff.1 hc
    exact hend octet (List.mem_of_getLast? hlast) (htrimmed.2 octet hlast)
  rw [trim, String.toList_ofList, hdrop _ hfirst, hdrop _ hlast, List.reverse_reverse]

end Ascii

theorem trim_space (cs : List Char) : trim (String.ofList (' ' :: cs)) = trim (String.ofList cs) := by
  rw [trim, trim, String.toList_ofList, String.toList_ofList]
  rfl

/-! ## Prefixes -/

theorem stripPrefix_eq_some {start text rest : String} :
    stripPrefix start text = some rest ↔ text.toList = start.toList ++ rest.toList := by
  unfold stripPrefix
  split
  · next hprefix =>
      obtain ⟨tail, htail⟩ := List.isPrefixOf_iff_prefix.1 hprefix
      rw [← htail, List.drop_left, Option.some.injEq, List.append_cancel_left_eq]
      constructor
      · rintro rfl
        rw [String.toList_ofList]
      · rintro rfl
        rw [String.ofList_toList]
  · next hprefix =>
      refine ⟨nofun, fun heq => absurd (List.isPrefixOf_iff_prefix.2 ⟨_, heq.symm⟩) hprefix⟩

theorem stripName_eq_some {name text value : String} :
    (stripPrefix name text).bind (stripPrefix "=") = some value ↔
      text.toList = name.toList ++ '=' :: value.toList := by
  simp only [Option.bind_eq_some_iff, stripPrefix_eq_some]
  constructor
  · rintro ⟨rest, htext, hrest⟩
    rw [htext, hrest]
    rfl
  · intro htext
    exact ⟨String.ofList ('=' :: value.toList), by simpa using htext, by simp⟩

/-- The first occurrence of a character splits a text in one way only. -/
theorem append_cons_eq_iff {c : Char} {front front' back back' : List Char} (h : c ∉ front)
    (h' : c ∉ front') :
    front ++ c :: back = front' ++ c :: back' ↔ front = front' ∧ back = back' := by
  constructor
  · intro heq
    rcases List.append_eq_append_iff.1 heq with ⟨as, rfl, hback⟩ | ⟨as, rfl, hback⟩
    · cases as with
      | nil => exact ⟨(List.append_nil _).symm, by simpa using hback⟩
      | cons a as =>
          cases hback
          exact absurd (List.mem_append_right _ List.mem_cons_self) h'
    · cases as with
      | nil => exact ⟨List.append_nil _, by simpa using hback.symm⟩
      | cons a as =>
          cases hback
          exact absurd (List.mem_append_right _ List.mem_cons_self) h
  · rintro ⟨rfl, rfl⟩
    rfl

/-! ## One cookie -/

namespace Cookie

variable {cookie : Cookie} (h : ∀ octet ∈ cookie.octets, octet.toNat < 128)

theorem chars_octets (cookie : Cookie) :
    chars cookie.octets = chars cookie.name ++ '=' :: chars cookie.value := by
  rw [octets, chars, List.map_append]
  rfl

theorem trimmed_octets (cookie : Cookie) : Trimmed cookie.octets := by
  refine ⟨fun octet hhead => ?_, fun octet hlast => ?_⟩
  · cases hname : cookie.name with
    | nil =>
        rw [octets, hname] at hhead
        cases hhead
        rfl
    | cons first rest =>
        rw [octets, hname] at hhead
        exact cookie.name_valid.2.2.1 octet (hname ▸ hhead)
  · rw [octets, List.getLast?_append_cons] at hlast
    cases hvalue : cookie.value with
    | nil =>
        rw [hvalue] at hlast
        cases hlast
        rfl
    | cons first rest =>
        rw [hvalue, List.getLast?_cons_cons, ← hvalue] at hlast
        exact cookie.value_valid.2.2 octet hlast

include h

theorem semicolon_notMem : ';' ∉ chars cookie.octets := by
  have hmem : ';' ∈ chars cookie.octets ↔ 59 ∈ cookie.octets := @mem_chars _ h 59 (by decide)
  rw [hmem, octets, List.mem_append, List.mem_cons]
  rintro (hname | heq | hvalue)
  · exact cookie.name_valid.2.1 hname
  · cases heq
  · exact cookie.value_valid.1 hvalue

theorem equals_notMem : '=' ∉ chars cookie.name := by
  have hname : ∀ octet ∈ cookie.name, octet.toNat < 128 :=
    fun octet hmem => h octet (List.mem_append_left _ hmem)
  have hmem : '=' ∈ chars cookie.name ↔ 61 ∈ cookie.name := @mem_chars _ hname 61 (by decide)
  rw [hmem]
  exact cookie.name_valid.1

theorem chars_name_iff {name : String} :
    chars cookie.name = name.toList ↔ cookie.name = asBytes name := by
  have hbytes : asBytes (String.ofList (chars cookie.name)) = cookie.name :=
    asBytes_ofAscii fun octet hmem => h octet (List.mem_append_left _ hmem)
  constructor
  · intro hchars
    rw [hchars, String.ofList_toList] at hbytes
    exact hbytes.symm
  · intro hname
    rw [← asBytes_injective (hbytes.trans hname), String.toList_ofList]

/-- A cookie's text passes the prefixes of `cookie_value` exactly when it has the name. -/
theorem stripName_octets {name : String} (hname : '=' ∉ name.toList) :
    (stripPrefix name (String.ofList (chars cookie.octets))).bind (stripPrefix "=") =
      if cookie.name = asBytes name then some (String.ofList (chars cookie.value)) else none := by
  ext value
  rw [stripName_eq_some, String.toList_ofList, chars_octets,
    append_cons_eq_iff (equals_notMem h) hname, chars_name_iff h, Option.ite_none_right_eq_some,
    Option.some.injEq]
  refine and_congr_right fun _ => ⟨fun hvalue => ?_, fun hvalue => ?_⟩
  · rw [hvalue, String.ofList_toList]
  · rw [← hvalue, String.toList_ofList]

end Cookie

/-! ## The header -/

section Header

variable {cookies : List Cookie}

theorem cookieHeader_cons (cookie next : Cookie) (rest : List Cookie) :
    cookieHeader (cookie :: next :: rest) =
      cookie.octets ++ 59 :: 32 :: cookieHeader (next :: rest) := by
  simp [cookieHeader, List.intercalate_cons_cons]

theorem mem_cookieHeader {cookie : Cookie} (hcookie : cookie ∈ cookies) {octet : UInt8}
    (hoctet : octet ∈ cookie.octets) : octet ∈ cookieHeader cookies := by
  induction cookies with
  | nil => cases hcookie
  | cons first rest ih =>
      cases rest with
      | nil =>
          cases List.mem_singleton.1 hcookie
          simpa [cookieHeader] using hoctet
      | cons next rest =>
          rw [cookieHeader_cons]
          rcases List.mem_cons.1 hcookie with rfl | hrest
          · exact List.mem_append_left _ hoctet
          · have hlater := ih hrest
            exact List.mem_append_right _ (List.mem_cons_of_mem _ (List.mem_cons_of_mem _ hlater))

/-- As text, the header joins its cookies with semicolons: the spaces stand before the later ones. -/
theorem chars_cookieHeader (cookie : Cookie) (rest : List Cookie) :
    chars (cookieHeader (cookie :: rest)) =
      [';'].intercalate (chars cookie.octets :: rest.map fun c => ' ' :: chars c.octets) := by
  induction rest generalizing cookie with
  | nil => simp [cookieHeader]
  | cons next rest ih =>
      calc chars (cookieHeader (cookie :: next :: rest))
          = chars cookie.octets ++ ';' :: ' ' :: chars (cookieHeader (next :: rest)) := by
            rw [cookieHeader_cons, chars, List.map_append]
            rfl
        _ = _ := by
            rw [ih, List.map_cons, List.intercalate_cons_cons, List.intercalate_cons_cons_left,
              List.append_assoc]
            rfl

/-- **Splitting at the semicolons and trimming gives the cookies back.** -/
theorem trim_splitOn_cookieHeader {cookie : Cookie} {rest : List Cookie}
    (h : ∀ c ∈ cookie :: rest, ∀ octet ∈ c.octets, octet.toNat < 128) :
    ((chars (cookieHeader (cookie :: rest))).splitOn ';').map
        (fun piece => trim (String.ofList piece)) =
      (cookie :: rest).map fun c => String.ofList (chars c.octets) := by
  have htrim : ∀ c ∈ cookie :: rest,
      trim (String.ofList (chars c.octets)) = String.ofList (chars c.octets) :=
    fun c hc => trim_chars (h c hc) c.trimmed_octets
  have hsplit : ∀ piece ∈ chars cookie.octets :: rest.map (fun c => ' ' :: chars c.octets),
      ';' ∉ piece := by
    intro piece hpiece
    rcases List.mem_cons.1 hpiece with rfl | hpiece
    · exact Cookie.semicolon_notMem (h cookie List.mem_cons_self)
    · obtain ⟨c, hc, rfl⟩ := List.mem_map.1 hpiece
      rintro (_ | ⟨_, hmem⟩)
      exact Cookie.semicolon_notMem (h c (List.mem_cons_of_mem _ hc)) hmem
  rw [chars_cookieHeader, List.splitOn_intercalate ';' hsplit (List.cons_ne_nil _ _), List.map_cons,
    List.map_cons, htrim cookie List.mem_cons_self, List.map_map]
  refine congrArg _ (List.map_congr_left fun c hc => ?_)
  exact (trim_space _).trans (htrim c (List.mem_cons_of_mem _ hc))

theorem findSome_stripName {name : String} (hname : '=' ∉ name.toList)
    (h : ∀ c ∈ cookies, ∀ octet ∈ c.octets, octet.toNat < 128) :
    (cookies.map fun c => String.ofList (chars c.octets)).findSome?
        (fun cookie => (stripPrefix name cookie).bind (stripPrefix "=")) =
      (firstNamed name cookies).map fun c => String.ofList (chars c.value) := by
  induction cookies with
  | nil => rfl
  | cons cookie rest ih =>
      have hrest := ih fun c hc => h c (List.mem_cons_of_mem _ hc)
      rw [List.map_cons, List.findSome?_cons, firstNamed, List.find?_cons,
        Cookie.stripName_octets (h cookie List.mem_cons_self) hname]
      by_cases hnamed : cookie.name = asBytes name
      · rw [if_pos hnamed, decide_eq_true hnamed]
        rfl
      · rw [if_neg hnamed, decide_eq_false hnamed]
        exact hrest

theorem firstNamed_congr {name : String} {cookies' : List Cookie}
    (h : cookies.filter (fun c => c.name = asBytes name) =
      cookies'.filter fun c => c.name = asBytes name) :
    firstNamed name cookies = firstNamed name cookies' := by
  rw [firstNamed, firstNamed, ← List.head?_filter, ← List.head?_filter, h]

end Header

/-! ## The lookup -/

section Lookup

variable [HttpCrates] {headers : HeaderMap} {cookies : List Cookie} {name : String}

theorem toStr_visible (rules : HeaderRules) {value : List UInt8}
    (h : ∀ octet ∈ value, isVisible octet = true) :
    HttpCrates.toStr value = some (String.ofList (chars value)) := by
  cases htext : HttpCrates.toStr value with
  | none =>
      obtain ⟨octet, hmem, hfalse⟩ := (rules.fails_iff value).1 htext
      rw [h octet hmem] at hfalse
      cases hfalse
  | some text =>
      have hbytes : asBytes (String.ofList (chars value)) = value :=
        asBytes_ofAscii fun octet hmem => lt_of_visible (h octet hmem)
      exact congrArg some (asBytes_injective (hbytes.trans (rules.text value text htext)).symm)

theorem cookieValue_visible (rules : HeaderRules)
    (hheader : headers.get "cookie" = some (cookieHeader cookies))
    (hvisible : ∀ octet ∈ cookieHeader cookies, isVisible octet = true)
    (hname : '=' ∉ name.toList) :
    cookieValue headers name =
      (firstNamed name cookies).map fun c => String.ofList (chars c.value) := by
  have hascii : ∀ c ∈ cookies, ∀ octet ∈ c.octets, octet.toNat < 128 :=
    fun c hc octet hoctet => lt_of_visible (hvisible octet (mem_cookieHeader hc hoctet))
  have htext := toStr_visible rules hvisible
  simp only [cookieValue, hheader, htext, Option.bind_eq_bind, Option.bind_some, String.toList_ofList]
  cases cookies with
  | nil =>
      -- the header without cookies is one empty piece
      have hnone : (stripPrefix name "").bind (stripPrefix "=") = none := by
        refine Option.eq_none_iff_forall_ne_some.2 fun value hvalue => ?_
        simpa using congrArg List.length (stripName_eq_some.1 hvalue)
      rw [show chars (cookieHeader []) = [] from rfl, List.splitOn_nil, List.map_singleton,
        List.findSome?_singleton]
      exact hnone
  | cons cookie rest =>
      rw [trim_splitOn_cookieHeader hascii, findSome_stripName hname hascii]

theorem cookieValue_hidden (rules : HeaderRules)
    (hheader : headers.get "cookie" = some (cookieHeader cookies))
    (hhidden : ¬ ∀ octet ∈ cookieHeader cookies, isVisible octet = true) :
    cookieValue headers name = none := by
  have hfails : ∃ octet ∈ cookieHeader cookies, isVisible octet = false := by
    simpa using hhidden
  simp only [cookieValue, hheader, (rules.fails_iff _).2 hfails, Option.bind_eq_bind,
    Option.bind_some, Option.bind_none]

/-- **What `cookie_value` finds** in cookies joined by `"; "`: the value of the first with exactly
    that name when the whole header is visible ASCII, and nothing otherwise. So headers that agree on
    the cookies of that name, and on whether they are visible ASCII, agree on the result. -/
theorem cookie_lookup (rules : HeaderRules)
    (hheader : headers.get "cookie" = some (cookieHeader cookies)) (hname : '=' ∉ name.toList) :
    (cookieValue headers name).map asBytes =
        (if (cookieHeader cookies).all isVisible then (firstNamed name cookies).map Cookie.value
          else none) ∧
      ∀ (headers' : HeaderMap) (cookies' : List Cookie),
        headers'.get "cookie" = some (cookieHeader cookies') →
        cookies.filter (fun c => c.name = asBytes name) =
          cookies'.filter (fun c => c.name = asBytes name) →
        (cookieHeader cookies).all isVisible = (cookieHeader cookies').all isVisible →
        cookieValue headers name = cookieValue headers' name := by
  by_cases hvisible : ∀ octet ∈ cookieHeader cookies, isVisible octet = true
  · have hfound := cookieValue_visible rules hheader hvisible hname
    have hall : (cookieHeader cookies).all isVisible = true := List.all_eq_true.2 hvisible
    refine ⟨?_, fun headers' cookies' hheader' hsame hvisible' => ?_⟩
    · rw [if_pos hall, hfound, Option.map_map]
      cases hfirst : firstNamed name cookies with
      | none => rfl
      | some cookie =>
          have hmem : cookie ∈ cookies := List.mem_of_find?_eq_some hfirst
          refine congrArg some (asBytes_ofAscii fun octet hoctet => ?_)
          have hoctets : octet ∈ cookie.octets :=
            List.mem_append_right _ (List.mem_cons_of_mem _ hoctet)
          exact lt_of_visible (hvisible octet (mem_cookieHeader hmem hoctets))
    · have hall' := List.all_eq_true.1 (hvisible'.symm.trans hall)
      rw [hfound, cookieValue_visible rules hheader' hall' hname, firstNamed_congr hsame]
  · have hnone : cookieValue headers name = none := cookieValue_hidden rules hheader hvisible
    have hall : (cookieHeader cookies).all isVisible ≠ true :=
      fun h => hvisible (List.all_eq_true.1 h)
    refine ⟨by rw [if_neg hall, hnone]; rfl, fun headers' cookies' hheader' hsame hvisible' => ?_⟩
    have hall' : ¬ ∀ octet ∈ cookieHeader cookies', isVisible octet = true :=
      fun h => hall (hvisible'.trans (List.all_eq_true.2 h))
    rw [hnone, cookieValue_hidden rules hheader' hall']

end Lookup

section Sample

attribute [local instance] sampleHttp

theorem sampleHttp_rules : HeaderRules where
  text := sampleHttp_text
  fails_iff value := by
    have hdef : HttpCrates.toStr value =
        if value.all isVisible then some (String.ofList (chars value)) else none := rfl
    simp [hdef]

/-- Two cookies that are named almost like the session's, and the session's. -/
def sampleCookies : List Cookie := [
  ⟨asBytes "x__Host-rs_session", asBytes "wrong", by decide +kernel, by decide +kernel⟩,
  ⟨asBytes "__Host-rs_session2", asBytes "wrong", by decide +kernel, by decide +kernel⟩,
  ⟨asBytes sessionCookie, asBytes "right", by decide +kernel, by decide +kernel⟩]

theorem cookie_lookup_sample :
    (cookieValue [("cookie", cookieHeader sampleCookies)] sessionCookie).map asBytes =
        some (asBytes "right") ∧
      cookieValue [("cookie", cookieHeader sampleCookies)] sessionCookie =
        cookieValue [("cookie", cookieHeader (sampleCookies.drop 2))] sessionCookie := by
  obtain ⟨hfound, hsame⟩ := @cookie_lookup sampleHttp [("cookie", cookieHeader sampleCookies)]
    sampleCookies sessionCookie sampleHttp_rules rfl (by decide)
  have hfilter : sampleCookies.filter (fun c => c.name = asBytes sessionCookie) =
      (sampleCookies.drop 2).filter fun c => c.name = asBytes sessionCookie := by decide +kernel
  exact ⟨hfound.trans (by decide +kernel), hsame _ _ rfl hfilter (by decide +kernel)⟩

/-- One octet outside ASCII in another cookie hides the session's; and a name with `=` reads on into a
    cookie's value. -/
theorem cookie_lookup_fails :
    HeaderRules ∧
      (∃ other session : Cookie, other.name ≠ asBytes sessionCookie ∧
        firstNamed sessionCookie [other, session] = some session ∧
        session.value.all isVisible = true ∧
        cookieValue [("cookie", cookieHeader [other, session])] sessionCookie = none ∧
        cookieValue [("cookie", cookieHeader [session])] sessionCookie = some "right") ∧
      ∃ cookie : Cookie, firstNamed "a=b" [cookie] = none ∧
        cookieValue [("cookie", cookieHeader [cookie])] "a=b" = some "c" := by
  refine ⟨sampleHttp_rules, ⟨⟨asBytes "theme", [255], by decide +kernel, by decide +kernel⟩,
    ⟨asBytes sessionCookie, asBytes "right", by decide +kernel, by decide +kernel⟩, by decide +kernel,
    rfl, by decide +kernel, by decide +kernel, by decide +kernel⟩,
    ⟨asBytes "a", asBytes "b=c", by decide +kernel, by decide +kernel⟩, rfl, by decide +kernel⟩

end Sample

end RsConsole
