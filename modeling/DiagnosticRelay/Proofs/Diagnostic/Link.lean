import DiagnosticRelay.Diagnostic.Link
import DiagnosticRelay.Proofs.Except.Ok
import DiagnosticRelay.Proofs.Url.Reading

/-!
# What documentation links lead to

The link of an identifier leads to the page of that name, unless the identifier has tabs or
line ends or is one or two dots. Tabs and line ends are lost, so the link leads to the page
of what is left; dots lead away from the pages. Identifiers share a link exactly when they
lead to the same address.

## Main definitions

* `Diagnostic.IsPlain`: identifiers that stand in a URL as they are.
* `Diagnostic.IsPageOf`: the URL of the page of a name.
* `Diagnostic.Address`, `Diagnostic.addressOf`: where links lead.
* `Diagnostic.LinkLeads`: what is said of the link of an identifier.

## Main results

* `Diagnostic.link_leads_to_address`: links of any identifier.
* `Diagnostic.link_drops_tab`: a link that leads to another page.
-/

namespace DiagnosticRelay.Diagnostic

variable {i j name : String}

/-- The authority of the documentation. -/
def site : Url.Authority := { host := some (.domain "phpstan.org".toList) }

/-- The identifiers that stand in a URL as they are. -/
structure IsPlain (i : String) : Prop where
  ne_dot : i ≠ "."
  ne_dots : i ≠ ".."
  kept : ∀ c ∈ i.toList, Url.isDropped c = false

/-- A URL is the page of a name: below the pages it has one segment that is read as the
name, and nothing behind it. -/
structure IsPageOf (u : Url) (name : String) : Prop where
  scheme : u.scheme = "https".toList
  authority : u.authority = some site
  path : ∃ segment, u.path = .segments [pagesSegment, segment] ∧
    Url.decode segment = Octets.ofString name
  query : u.query = none
  fragment : u.fragment = none

/-- Where a link leads. -/
inductive Address where
  /-- The front page. -/
  | front
  /-- The list of the pages. -/
  | overview
  /-- The page of a name. -/
  | page (name : String)
  deriving DecidableEq, Repr

/-- What is left of an identifier without tabs and line ends. -/
def keptOf (i : String) : String := String.ofList (i.toList.filter (!Url.isDropped ·))

/-- Where the link of an identifier leads. The dots that are literal do not count; those
that are left of an identifier go up, or nowhere. -/
def addressOf (i : String) : Address :=
  if i = "." ∨ i = ".." then .overview
  else if keptOf i = ".." then .front
  else if keptOf i = "." then .page ""
  else .page (keptOf i)

/-- The path to an address. -/
def Address.segments : Address → List (List Char)
  | .front => [[]]
  | .overview => [pagesSegment]
  | .page name => [pagesSegment, Url.encodeChars Url.segmentSet name.toList]

/-! ## Identifiers and their addresses -/

theorem keptOf_eq_self_iff : keptOf i = i ↔ ∀ c ∈ i.toList, Url.isDropped c = false := by
  rw [keptOf, ← String.toList_inj, String.toList_ofList, List.filter_eq_self]
  simp only [Bool.not_eq_true']

/-- A page that is led to is none of the dots. -/
theorem ne_of_addressOf_eq_page (h : addressOf i = .page name) : name ≠ "." ∧ name ≠ ".." := by
  rw [addressOf] at h
  split_ifs at h with hliteral hdots hdot
  all_goals obtain rfl := Address.page.inj h
  · decide
  · exact ⟨hdot, hdots⟩

/-- The plain identifiers, and no others, lead to the pages of their names. -/
theorem addressOf_eq_page_self_iff : addressOf i = .page i ↔ IsPlain i := by
  constructor
  · intro h
    obtain ⟨hdot, hdots⟩ := ne_of_addressOf_eq_page h
    refine ⟨hdot, hdots, keptOf_eq_self_iff.mp ?_⟩
    rw [addressOf, if_neg (not_or.mpr ⟨hdot, hdots⟩)] at h
    split_ifs at h with hup hkept
    · -- Then the identifier is empty, and nothing is left of it but a dot.
      obtain rfl := Address.page.inj h
      exact absurd hkept (by decide)
    · exact Address.page.inj h
  · rintro ⟨hdot, hdots, hkept⟩
    rw [addressOf, keptOf_eq_self_iff.mpr hkept, if_neg (not_or.mpr ⟨hdot, hdots⟩), if_neg hdots,
      if_neg hdot]

/-! ## Links and their addresses -/

/-- An identifier is pushed behind the segment of the pages, which dots take away. -/
theorem pushSegment_pages (i : String) :
    Url.pushSegment (Url.popIfEmpty [pagesSegment, []]) i.toList = (addressOf i).segments := by
  have hdot : i.toList = ['.'] ↔ i = "." := @String.toList_inj i "."
  have hdots : i.toList = ['.', '.'] ↔ i = ".." := @String.toList_inj i ".."
  have hpop : Url.popIfEmpty [pagesSegment, []] = [pagesSegment] := by decide
  have hbefore : [pagesSegment] ≠ [[]] := by decide
  have hshorten : Url.shorten [pagesSegment] = [] := by decide
  have hkept : i.toList.filter (!Url.isDropped ·) = (keptOf i).toList := by
    rw [keptOf, String.toList_ofList]
  simp only [Url.pushSegment, addressOf, hpop, if_neg hbefore, hkept, hdot, hdots,
    Url.isDot_encodeChars_iff, Url.isDoubleDot_encodeChars_iff]
  split_ifs
  · rfl
  · rw [hshorten]
    rfl
  · rw [Address.segments, String.toList_empty, Url.encodeChars_nil]
    rfl
  · rfl

theorem link_eq_ofWeb (i : String) : link i = .ofWeb site (addressOf i).segments := by
  rw [link, pushSegment_pages]
  rfl

/-- Different addresses have different paths. -/
theorem Address.segments_injective : Function.Injective Address.segments := by
  have hne : pagesSegment ≠ [] := by decide
  intro a b h
  cases a <;> cases b <;> simp only [Address.segments, List.cons.injEq, reduceCtorEq, and_false,
    and_true, true_and] at h ⊢
  case front.overview => exact absurd h.symm hne
  case overview.front => exact absurd h hne
  case page.page n m =>
    have hread := congrArg Url.decode h
    rw [Url.decode_encodeChars (by decide), Url.decode_encodeChars (by decide)] at hread
    exact congrArg Address.page (Octets.ofString_injective hread)

theorem isSegment_pagesSegment : Url.IsSegment pagesSegment :=
  ⟨fun _ hc => Url.isPathChar_of_all (by decide) hc, by decide, by decide⟩

/-- The paths that are led to are written as paths are read. -/
theorem isSegment_of_mem_segments {segment : List Char} (h : segment ∈ (addressOf i).segments) :
    Url.IsSegment segment := by
  cases haddress : addressOf i with
  | front =>
    rw [haddress] at h
    obtain rfl := List.mem_singleton.mp h
    exact Url.isSegment_nil
  | overview =>
    rw [haddress] at h
    obtain rfl := List.mem_singleton.mp h
    exact isSegment_pagesSegment
  | page name =>
    rw [haddress] at h
    obtain ⟨hdot, hdots⟩ := ne_of_addressOf_eq_page haddress
    rcases List.mem_pair.mp h with rfl | rfl
    · exact isSegment_pagesSegment
    · exact Url.isSegment_encodeChars hdot hdots

/-- What is written on the site is read as it was written. -/
theorem parse_render_site {segments : List (List Char)} (h : ∀ s ∈ segments, Url.IsSegment s)
    (hne : segments ≠ []) :
    Url.parse (Url.ofWeb site segments).render = .ok (.ofWeb site segments) := by
  have hauthority : Url.authorityOf (.web 443) "phpstan.org".toList = .ok site :=
    eq_ok_of_toOption_eq_some (by decide +kernel)
  exact Url.parse_render hauthority rfl (fun _ hc => Url.isPathChar_of_all (by decide) hc)
    (by decide) h hne

/-- The address of all pages is what its text is read as. -/
theorem parse_pages : Url.parse "https://phpstan.org/error-identifiers/" = .ok pages := by
  have hrender : (Url.ofWeb site [pagesSegment, []]).render =
      "https://phpstan.org/error-identifiers/" := by decide +kernel
  rw [← hrender]
  refine parse_render_site (fun s hs => ?_) (by simp)
  rcases List.mem_pair.mp hs with rfl | rfl
  · exact isSegment_pagesSegment
  · exact Url.isSegment_nil

/-- A link is read as it was written. -/
theorem parse_render_link (i : String) : Url.parse (link i).render = .ok (link i) := by
  have hne : (addressOf i).segments ≠ [] := by cases addressOf i <;> simp [Address.segments]
  rw [link_eq_ofWeb]
  exact parse_render_site (fun _ hs => isSegment_of_mem_segments hs) hne

/-- The links with the same text are those to the same address. -/
theorem render_link_eq_iff : (link i).render = (link j).render ↔ addressOf i = addressOf j := by
  constructor
  · -- The reader takes the text back to the link, and the path of that has the address.
    intro h
    have hlink : link i = link j :=
      Except.ok.inj (by rw [← parse_render_link, h, parse_render_link])
    rw [link_eq_ofWeb, link_eq_ofWeb] at hlink
    exact Address.segments_injective (Url.Route.segments.inj (congrArg Url.path hlink))
  · intro h
    rw [link_eq_ofWeb, link_eq_ofWeb, h]

/-- A link is the page of the name that it leads to, and of no other. -/
theorem isPageOf_link_iff : IsPageOf (link i) name ↔ addressOf i = .page name := by
  constructor
  · rintro ⟨-, -, ⟨segment, hpath, hread⟩, -, -⟩
    rw [link_eq_ofWeb] at hpath
    have hsegments := Url.Route.segments.inj hpath
    cases haddress : addressOf i with
    | front => simp [haddress, Address.segments] at hsegments
    | overview => simp [haddress, Address.segments] at hsegments
    | page n =>
      have hsegment : Url.encodeChars Url.segmentSet n.toList = segment := by
        simpa [haddress, Address.segments] using hsegments
      rw [← hsegment, Url.decode_encodeChars (by decide)] at hread
      exact congrArg Address.page (Octets.ofString_injective hread)
  · intro h
    rw [link_eq_ofWeb, h]
    exact ⟨rfl, rfl, ⟨_, rfl, Url.decode_encodeChars (by decide) name⟩, rfl, rfl⟩

/-! ## What links lead to -/

/-- Where the link of an identifier leads. It is on the site, without a query and without a
fragment, and it is read as it was written. It is the page of the identifier if that is plain,
and otherwise it is not. The identifiers with the same address, and no others, have the same
link, so no two plain identifiers have. -/
structure LinkLeads (i : String) : Prop where
  scheme : (link i).scheme = "https".toList
  authority : (link i).authority = some site
  query : (link i).query = none
  fragment : (link i).fragment = none
  parse_render : Url.parse (link i).render = .ok (link i)
  isPageOf_iff : ∀ name, IsPageOf (link i) name ↔ addressOf i = .page name
  isPageOf_self_iff : IsPageOf (link i) i ↔ IsPlain i
  render_eq_iff : ∀ j, (link i).render = (link j).render ↔ addressOf i = addressOf j
  eq_of_render_eq : ∀ j, IsPlain i → IsPlain j → (link i).render = (link j).render → i = j

/-- Where the link of any identifier leads. -/
theorem link_leads_to_address (i : String) : LinkLeads i where
  scheme := rfl
  authority := rfl
  query := rfl
  fragment := rfl
  parse_render := parse_render_link i
  isPageOf_iff _ := isPageOf_link_iff
  isPageOf_self_iff := isPageOf_link_iff.trans addressOf_eq_page_self_iff
  render_eq_iff _ := render_link_eq_iff
  eq_of_render_eq j hi hj h := by
    have haddress := render_link_eq_iff.mp h
    rw [addressOf_eq_page_self_iff.mpr hi, addressOf_eq_page_self_iff.mpr hj] at haddress
    exact Address.page.inj haddress

/-- An identifier with a tab has the link of another one, which is not its page. Its page
would have the tab encoded. -/
theorem link_drops_tab :
    (link "a\tb").render = "https://phpstan.org/error-identifiers/ab" ∧
      (link "a\tb").render = (link "ab").render ∧ ¬IsPageOf (link "a\tb") "a\tb" ∧
      IsPageOf (.ofWeb site [pagesSegment, "a%09b".toList]) "a\tb" := by
  refine ⟨by decide +kernel, by decide +kernel, ?_, ?_⟩
  · rw [isPageOf_link_iff, addressOf_eq_page_self_iff]
    intro hplain
    exact absurd (hplain.kept '\t' (by decide)) (by decide)
  · exact ⟨rfl, rfl, ⟨_, rfl, by decide +kernel⟩, rfl, rfl⟩

end DiagnosticRelay.Diagnostic
