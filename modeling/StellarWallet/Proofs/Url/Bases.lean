import Mathlib.Data.List.DropRight
import StellarWallet.Explorer
import StellarWallet.Proofs.Url.LastSegment

/-!
Which texts are bases of links to an explorer.

A base is read without the characters that a link does without: controls and blanks in front, tabs
and line ends anywhere. Read so it has to have a scheme of the web and an authority that is not
empty and could name a host. The links themselves go on from the text of the base with all its
characters, so they are links of the web just if the base is one as it stands; and the authority of
one that is read so need not name a host, but can be a port or the name of a user.
-/

namespace StellarWallet

namespace Authority

variable {cs rest scheme authority s t u : List Char}

/-- The name of one of the two schemes of the web, in any case. -/
def IsWebScheme (scheme : List Char) : Prop :=
  scheme.map Char.toLower = "http".toList ∨ scheme.map Char.toLower = "https".toList

/-- A text that begins with a scheme of the web, a colon, two slashes and an authority, all before
the next slash, query or fragment, which is not empty. -/
def HasAuthority (cs : List Char) : Prop :=
  ∃ scheme authority rest, cs = scheme ++ "://".toList ++ authority ++ rest ∧ IsWebScheme scheme ∧
    authority ≠ [] ∧ ∀ c ∈ authority, isHostChar c = true

/-- The host part of an authority: what comes after the name of a user and before a port, or what
stands in brackets there. -/
def hostPart (authority : List Char) : List Char :=
  let place := authority.rtakeWhile (· ≠ '@')
  if '[' ∈ place then bracketed place else (Text.cut ':' place).1

/-- A text that begins like an absolute link of the web: with a scheme of the web, a colon, two
slashes and an authority with a host part, which is not empty. -/
def IsWebLink (cs : List Char) : Prop :=
  ∃ scheme rest, cs = scheme ++ "://".toList ++ rest ∧ IsWebScheme scheme ∧
    hostPart (rest.takeWhile isHostChar) ≠ []

/-- An address that may stand in brackets: one of a future version, or one of groups. -/
def IsBracketable (address : List Char) : Prop :=
  if address.head? = some 'v' then Host.isFuture address = true
  else Host.isFourPart address = false ∧ Host.isSixteenByte address = true

/-- An authority that can name a host. -/
structure IsSound (authority : List Char) : Prop where
  paired : '[' ∈ authority ↔ ']' ∈ authority
  address : '[' ∈ authority → IsBracketable (bracketed authority)
  undisguised : ∀ c ∈ authority, c.toNat ∉ disguises

lemma checkBracketed_eq_ok_iff : checkBracketed authority = .ok () ↔ IsBracketable authority := by
  unfold checkBracketed IsBracketable
  split
  · split <;> simp_all
  · split
    · simp_all
    · split <;> simp_all

lemma check_eq_ok_iff : check authority = .ok () ↔ IsSound authority := by
  have hdisguise : authority.any (fun c => disguises.contains c.toNat) = true ↔
      ¬ ∀ c ∈ authority, c.toNat ∉ disguises := by
    simp
  unfold check
  by_cases hpaired : '[' ∈ authority ↔ ']' ∈ authority
  · rw [if_neg (fun hne => hne (propext hpaired))]
    by_cases hbracket : '[' ∈ authority
    · rw [if_pos hbracket]
      cases hhost : checkBracketed (bracketed authority) with
      | error fault =>
        refine ⟨nofun, fun hsound => ?_⟩
        rw [checkBracketed_eq_ok_iff.2 (hsound.address hbracket)] at hhost
        cases hhost
      | ok =>
        have haddress := checkBracketed_eq_ok_iff.1 hhost
        by_cases hplain : ∀ c ∈ authority, c.toNat ∉ disguises
        · rw [if_neg (fun hany => hdisguise.1 hany hplain)]
          exact ⟨fun _ => ⟨hpaired, fun _ => haddress, hplain⟩, fun _ => rfl⟩
        · rw [if_pos (hdisguise.2 hplain)]
          exact ⟨nofun, fun hsound => absurd hsound.undisguised hplain⟩
    · rw [if_neg hbracket]
      by_cases hplain : ∀ c ∈ authority, c.toNat ∉ disguises
      · rw [if_neg (fun hany => hdisguise.1 hany hplain)]
        exact ⟨fun _ => ⟨hpaired, fun h => absurd h hbracket, hplain⟩, fun _ => rfl⟩
      · rw [if_pos (hdisguise.2 hplain)]
        exact ⟨nofun, fun hsound => absurd hsound.undisguised hplain⟩
  · rw [if_pos (fun heq => hpaired (iff_of_eq heq))]
    exact ⟨nofun, fun hsound => absurd hsound.paired hpaired⟩

/-! ### Links of the web -/

lemma IsWebScheme.isAlpha (h : IsWebScheme scheme) {c : Char} (hc : c ∈ scheme) :
    c.isAlpha = true := by
  by_cases hcapital : c.isUpper = true
  · exact Bool.or_eq_true_iff.2 (Or.inl hcapital)
  · have hlower : c.toLower = c := dif_neg fun hcase => hcapital (decide_eq_true hcase)
    have hmem : c ∈ "http".toList ++ "https".toList := by
      rw [← hlower]
      refine List.mem_append.2 (h.imp (fun h => ?_) fun h => ?_)
      all_goals
        rw [← h]
        exact List.mem_map_of_mem hc
    exact (Text.forall_mem_of_all (p := fun d => d.isAlpha = true) (by decide)) c hmem

lemma IsWebScheme.ne_nil (h : IsWebScheme scheme) : scheme ≠ [] := by
  rintro rfl
  rcases h with h | h <;> exact absurd h (by decide)

lemma splitScheme_of_isWebScheme (h : IsWebScheme scheme) (rest : List Char) :
    splitScheme (scheme ++ ':' :: rest) = (scheme.map Char.toLower, rest) := by
  have hcolon : ':' ∉ scheme := fun hc => absurd (h.isAlpha hc) (by decide)
  have hvalid : ((scheme.head?.any Char.isAlpha) && scheme.all isSchemeChar) = true := by
    rw [Bool.and_eq_true]
    constructor
    · obtain ⟨c, r, rfl⟩ := List.exists_cons_of_ne_nil h.ne_nil
      exact h.isAlpha List.mem_cons_self
    · rw [List.all_eq_true]
      intro c hc
      rw [isSchemeChar, Char.isAlphanum, h.isAlpha hc]
      rfl
  rw [splitScheme, Text.cut_append_cons hcolon]
  exact if_pos hvalid

lemma splitScheme_cases (cs : List Char) : (splitScheme cs).1 = [] ∨
    ∃ scheme, cs = scheme ++ ':' :: (splitScheme cs).2 ∧
      (splitScheme cs).1 = scheme.map Char.toLower := by
  rcases Text.cut_cases ':' cs with ⟨-, hcut⟩ | ⟨scheme, rest, rfl, -, hcut⟩
  · rw [splitScheme, hcut]
    exact Or.inl rfl
  · rw [splitScheme, hcut]
    dsimp only
    split
    · exact Or.inr ⟨scheme, rfl, rfl⟩
    · exact Or.inl rfl

lemma hasAuthority_iff_splitScheme : HasAuthority cs ↔
    ((splitScheme cs).1 = "http".toList ∨ (splitScheme cs).1 = "https".toList) ∧
      authorityOf (splitScheme cs).2 ≠ [] := by
  constructor
  · rintro ⟨scheme, authority, rest, rfl, hscheme, hne, hall⟩
    obtain ⟨c, r, rfl⟩ := List.exists_cons_of_ne_nil hne
    have hcs : scheme ++ "://".toList ++ (c :: r) ++ rest
        = scheme ++ ':' :: '/' :: '/' :: c :: (r ++ rest) := by simp
    have hc : isHostChar c = true := hall c List.mem_cons_self
    rw [hcs, splitScheme_of_isWebScheme hscheme]
    refine ⟨hscheme, ?_⟩
    change ((c :: (r ++ rest)).takeWhile isHostChar) ≠ []
    rw [List.takeWhile_cons_of_pos hc]
    exact List.cons_ne_nil _ _
  · rintro ⟨hscheme, hauthority⟩
    rcases splitScheme_cases cs with hnone | ⟨scheme, hcs, hlower⟩
    · rw [hnone] at hscheme
      exact absurd hscheme (by decide)
    · rw [hlower] at hscheme
      generalize (splitScheme cs).2 = rest at hauthority hcs
      unfold authorityOf at hauthority
      split at hauthority
      · next r =>
        refine ⟨scheme, r.takeWhile isHostChar, r.dropWhile isHostChar, ?_, hscheme, hauthority,
          fun c hc => List.mem_takeWhile_imp hc⟩
        rw [List.append_assoc, List.takeWhile_append_dropWhile, hcs]
        simp
      · exact absurd rfl hauthority

/-- A link of the web has a scheme of the web and a host part. -/
lemma isWebLink_iff_splitScheme : IsWebLink cs ↔
    ((splitScheme cs).1 = "http".toList ∨ (splitScheme cs).1 = "https".toList) ∧
      hostPart (authorityOf (splitScheme cs).2) ≠ [] := by
  constructor
  · rintro ⟨scheme, rest, rfl, hscheme, hhost⟩
    have hcs : scheme ++ "://".toList ++ rest = scheme ++ ':' :: '/' :: '/' :: rest := by simp
    rw [hcs, splitScheme_of_isWebScheme hscheme]
    exact ⟨hscheme, hhost⟩
  · rintro ⟨hscheme, hhost⟩
    have hauthority : authorityOf (splitScheme cs).2 ≠ [] := fun hnil => hhost (by rw [hnil]; rfl)
    obtain ⟨scheme, authority, rest, rfl, hweb, -⟩ :=
      hasAuthority_iff_splitScheme.2 ⟨hscheme, hauthority⟩
    have hcs : scheme ++ "://".toList ++ authority ++ rest
        = scheme ++ ':' :: '/' :: '/' :: (authority ++ rest) := by simp
    rw [hcs, splitScheme_of_isWebScheme hweb] at hhost
    exact ⟨scheme, authority ++ rest, by simp, hweb, hhost⟩

lemma isWebLink_iff_hasAuthority :
    IsWebLink cs ↔ HasAuthority cs ∧ hostPart (authorityOf (splitScheme cs).2) ≠ [] := by
  rw [isWebLink_iff_splitScheme, hasAuthority_iff_splitScheme]
  constructor
  · rintro ⟨hscheme, hhost⟩
    exact ⟨⟨hscheme, fun hnil => hhost (by rw [hnil]; rfl)⟩, hhost⟩
  · rintro ⟨⟨hscheme, -⟩, hhost⟩
    exact ⟨hscheme, hhost⟩

lemma HasAuthority.exists_head? (h : HasAuthority cs) :
    ∃ c, cs.head? = some c ∧ c.isAlpha = true := by
  obtain ⟨scheme, authority, rest, rfl, hscheme, -⟩ := h
  obtain ⟨c, r, rfl⟩ := List.exists_cons_of_ne_nil hscheme.ne_nil
  exact ⟨c, rfl, hscheme.isAlpha List.mem_cons_self⟩

/-- An authority ends before a slash that follows. -/
lemma HasAuthority.authorityOf_append (h : HasAuthority t)
    (hu : ∀ c, u.head? = some c → c = '/') :
    authorityOf (splitScheme (t ++ u)).2 = authorityOf (splitScheme t).2 := by
  obtain ⟨scheme, authority, rest, rfl, hscheme, -⟩ := h
  have ht : scheme ++ "://".toList ++ authority ++ rest
      = scheme ++ ':' :: '/' :: '/' :: (authority ++ rest) := by simp
  have htu : scheme ++ ':' :: '/' :: '/' :: (authority ++ rest) ++ u
      = scheme ++ ':' :: '/' :: '/' :: ((authority ++ rest) ++ u) := by simp
  rw [ht, htu, splitScheme_of_isWebScheme hscheme, splitScheme_of_isWebScheme hscheme]
  exact takeWhile_append_of_head hu

/-- The last character of a text that goes on from `t` is not in `t`, if `t` has another end. -/
lemma exists_concat_of_append_eq {a : Char} (ht : t.getLast? ≠ some a) (h : s ++ [a] = t ++ u) :
    ∃ v, u = v ++ [a] ∧ s = t ++ v := by
  rcases List.eq_nil_or_concat u with rfl | ⟨v, b, rfl⟩
  · rw [List.append_nil] at h
    rw [← h] at ht
    exact absurd List.getLast?_concat ht
  · rw [List.concat_eq_append, ← List.append_assoc] at h
    obtain ⟨hs, hb⟩ := List.append_inj' h rfl
    refine ⟨v, ?_, hs⟩
    rw [List.concat_eq_append, hb]

/-- What follows a text that does not end in a slash gives it no authority, unless it brings two
slashes and more. -/
lemma hasAuthority_append_iff (ht : t.getLast? ≠ some '/')
    (hu : ∀ x c y, u = x ++ '/' :: '/' :: c :: y → c = '/') :
    HasAuthority (t ++ u) ↔ HasAuthority t := by
  constructor
  · rintro ⟨scheme, authority, rest, hcs, hscheme, hne, hall⟩
    obtain ⟨c, r, rfl⟩ := List.exists_cons_of_ne_nil hne
    have hc : isHostChar c = true := hall c List.mem_cons_self
    rw [List.append_assoc _ (c :: r), List.append_eq_append_iff] at hcs
    rcases hcs with ⟨v, hv, rfl⟩ | ⟨v, rfl, hv⟩
    · -- The two slashes are not in `t`, so they are in what follows.
      have hlast : (scheme ++ [':', '/']) ++ ['/'] = t ++ v := by
        rw [← hv]
        simp
      obtain ⟨w, rfl, hw⟩ := exists_concat_of_append_eq ht hlast
      have hlast' : (scheme ++ [':']) ++ ['/'] = t ++ w := by
        rw [← hw]
        simp
      obtain ⟨x, rfl, -⟩ := exists_concat_of_append_eq ht hlast'
      rw [hu x c (r ++ rest) (by simp)] at hc
      exact absurd hc (by decide)
    · cases v with
      | nil => exact absurd (by simp) ht
      | cons d v =>
        obtain ⟨rfl, -⟩ := List.cons.inj hv
        refine ⟨scheme, [c], v, ?_, hscheme, List.cons_ne_nil _ _, ?_⟩
        · simp
        · simpa using hc
  · rintro ⟨scheme, authority, rest, rfl, hscheme, hne, hall⟩
    exact ⟨scheme, authority, rest ++ u, List.append_assoc _ _ _, hscheme, hne, hall⟩

/-- Nor does it change whether the text is a link of the web, if it begins with a slash. -/
lemma isWebLink_append_iff (ht : t.getLast? ≠ some '/') (hhead : ∀ c, u.head? = some c → c = '/')
    (hu : ∀ x c y, u = x ++ '/' :: '/' :: c :: y → c = '/') :
    IsWebLink (t ++ u) ↔ IsWebLink t := by
  rw [isWebLink_iff_hasAuthority, isWebLink_iff_hasAuthority, hasAuthority_append_iff ht hu]
  refine and_congr_right fun h => ?_
  rw [h.authorityOf_append hhead]

end Authority

namespace ExplorerLinks

open Authority (HasAuthority IsWebLink IsSound authorityOf hostPart splitScheme significant)

/-- What is read as the authority of a base. -/
def authorityIn (base : String) : List Char := authorityOf (splitScheme (significant base.toList)).2

/-- A base that is read as a link of the web with an authority, which can name a host. -/
structure IsBase (base : String) : Prop where
  hasAuthority : HasAuthority (significant base.toList)
  isSound : IsSound (authorityIn base)

lemma split_eq (base : String) : Authority.split base = (Authority.check (authorityIn base)).map
    fun _ => ((splitScheme (significant base.toList)).1, authorityIn base) := by
  rw [Authority.split, authorityIn]
  dsimp only
  cases Authority.check (authorityOf (splitScheme (significant base.toList)).2) <;> rfl

lemma checkBase_of_isBase (title : String) {base : String} (h : IsBase base) :
    checkBase title base = .ok (trimSlashes base) := by
  rw [checkBase, split_eq, Authority.check_eq_ok_iff.2 h.isSound]
  exact if_pos (Authority.hasAuthority_iff_splitScheme.1 h.hasAuthority)

lemma checkBase_of_isSound (title : String) {base : String} (hsound : IsSound (authorityIn base))
    (h : ¬ IsBase base) : checkBase title base = .error (.notAbsolute title base) := by
  rw [checkBase, split_eq, Authority.check_eq_ok_iff.2 hsound]
  exact if_neg fun hlink => h ⟨Authority.hasAuthority_iff_splitScheme.2 hlink, hsound⟩

lemma checkBase_of_not_isSound (title : String) {base : String} (h : ¬ IsSound (authorityIn base)) :
    ∃ fault, checkBase title base = .error (.authority fault) := by
  rw [checkBase, split_eq]
  cases hcheck : Authority.check (authorityIn base) with
  | ok => exact absurd (Authority.check_eq_ok_iff.1 hcheck) h
  | error fault => exact ⟨fault, rfl⟩

lemma getLast?_trimSlashes (s : String) : (trimSlashes s).toList.getLast? ≠ some '/' := by
  rw [trimSlashes, String.toList_ofList]
  exact fun h => absurd (Text.getLast?_dropEndWhile h) (by decide)

/-- A base is a link of the web just if it is one without slashes at its end. -/
lemma isWebLink_trimSlashes_iff (base : String) :
    IsWebLink (trimSlashes base).toList ↔ IsWebLink base.toList := by
  obtain ⟨slashes, hbase, hall⟩ := exists_slashes base
  rw [hbase]
  refine (Authority.isWebLink_append_iff (getLast?_trimSlashes base) ?_ ?_).symm
  · exact fun c hc => hall c (List.mem_of_head? hc)
  · rintro x c y rfl
    exact hall c (by simp)

/-- A base is a link of the web just if the links that go on from it are. -/
lemma isWebLink_segment_iff (base text : String) :
    IsWebLink (trimSlashes base ++ "/" ++ segment text).toList ↔ IsWebLink base.toList := by
  have hlink : (trimSlashes base ++ "/" ++ segment text).toList
      = (trimSlashes base).toList ++ '/' :: (segment text).toList := by simp
  rw [hlink, ← isWebLink_trimSlashes_iff base]
  have hhead : ∀ c, ('/' :: (segment text).toList).head? = some c → c = '/' := by simp
  refine Authority.isWebLink_append_iff (getLast?_trimSlashes base) hhead ?_
  intro x c y h
  have hslash : '/' ∉ (segment text).toList := (isSegment_segment text).not_mem (by decide)
  cases x with
  | nil =>
    obtain ⟨-, h⟩ := List.cons.inj h
    exact absurd (h ▸ List.mem_cons_self) hslash
  | cons d x =>
    obtain ⟨-, h⟩ := List.cons.inj h
    exact absurd (h ▸ by simp) hslash

lemma hasAuthority_of_split {base : String} {x : List Char × List Char}
    (h : Authority.split base = .ok x)
    (hx : (x.1 = "http".toList ∨ x.1 = "https".toList) ∧ x.2 ≠ []) :
    HasAuthority (significant base.toList) := by
  rw [split_eq] at h
  cases hcheck : Authority.check (authorityIn base) with
  | error fault =>
    rw [hcheck] at h
    cases h
  | ok =>
    rw [hcheck] at h
    cases h
    exact Authority.hasAuthority_iff_splitScheme.2 hx

/-- What a base of a kind is called. -/
def title : TxKind → String
  | .classic => "Stellar explorer base"
  | .soroban => "Soroban explorer base"

/-- What is said of a text that is no base of its kind: it is a fault of the configuration, but for
an authority that cannot name a host. -/
structure IsRefusal (kind : TxKind) (base : String) (fault : Fault) : Prop where
  configuration : IsSound (authorityIn base) → fault = ⟨.configuration,
    title kind ++ " must be an absolute http(s) URL, got " ++ Text.quoted base⟩
  invalidValue : ¬ IsSound (authorityIn base) → fault.kind = .invalidValue

/-- A link over a base: it is read with an authority as well, and it is a link of the web if the
base is one as it stands, as every base is that has a host part and nothing that is not read. -/
structure IsLinkOver (base link : String) : Prop where
  read : HasAuthority (significant link.toList)
  real_iff : IsWebLink link.toList ↔ IsWebLink base.toList
  real : significant base.toList = base.toList → hostPart (authorityIn base) ≠ [] →
    IsWebLink link.toList

variable {classic soroban base : String}

lemma exists_isRefusal (kind : TxKind) (h : ¬ IsBase base) :
    ∃ fault, checkBase (title kind) base = .error fault ∧ IsRefusal kind base fault.toFault := by
  by_cases hsound : IsSound (authorityIn base)
  · exact ⟨_, checkBase_of_isSound _ hsound h, fun _ => rfl, fun hnot => absurd hsound hnot⟩
  · obtain ⟨fault, hfault⟩ := checkBase_of_not_isSound (title kind) hsound
    exact ⟨_, hfault, fun hs => absurd hs hsound, fun _ => rfl⟩

lemma isLinkOver (h : IsBase base) (text : String) :
    IsLinkOver base (trimSlashes base ++ "/" ++ segment text) := by
  have hreal := isWebLink_segment_iff base text
  refine ⟨?_, hreal, fun hplain hhost => ?_⟩
  · have hread := (endsInSegment_link (checkBase_of_isBase "" h) text).2
    rw [split_eq base, Authority.check_eq_ok_iff.2 h.isSound] at hread
    exact hasAuthority_of_split hread (Authority.hasAuthority_iff_splitScheme.1 h.hasAuthority)
  · have hauthority := h.hasAuthority
    rw [authorityIn, hplain] at hhost
    rw [hplain] at hauthority
    exact hreal.2 (Authority.isWebLink_iff_hasAuthority.2 ⟨hauthority, hhost⟩)

/-- **Bases are refused, or links go on from them.** The first of two texts that is no base is
refused as a fault of the configuration if its authority can name a host, and as a malformed value
if it cannot. With two bases, every link is read with an authority; and it is a link of the web just
if its base is one as it stands, as all bases are that have a host part and no characters to be
ignored. -/
theorem bases_are_refused_or_linked (classic soroban : String) :
    (¬ IsBase classic → ∃ fault, ofBases classic soroban = .error fault ∧
      IsRefusal .classic classic fault.toFault) ∧
    (IsBase classic → ¬ IsBase soroban → ∃ fault, ofBases classic soroban = .error fault ∧
      IsRefusal .soroban soroban fault.toFault) ∧
    (IsBase classic → IsBase soroban → ∃ links, ofBases classic soroban = .ok links ∧
      ∀ kind hash, IsLinkOver ((⟨classic, soroban⟩ : ExplorerLinks).base kind)
        (links.link kind hash)) := by
  refine ⟨fun hclassic => ?_, fun hclassic hsoroban => ?_, fun hclassic hsoroban => ?_⟩
  · obtain ⟨fault, hfault, hrefusal⟩ := exists_isRefusal .classic hclassic
    refine ⟨fault, ?_, hrefusal⟩
    rw [title] at hfault
    rw [ofBases, hfault]
    rfl
  · obtain ⟨fault, hfault, hrefusal⟩ := exists_isRefusal .soroban hsoroban
    refine ⟨fault, ?_, hrefusal⟩
    rw [title] at hfault
    rw [ofBases, checkBase_of_isBase _ hclassic, ok_bind, hfault]
    rfl
  · refine ⟨⟨trimSlashes classic, trimSlashes soroban⟩, ?_, fun kind hash => ?_⟩
    · rw [ofBases, checkBase_of_isBase _ hclassic, ok_bind, checkBase_of_isBase _ hsoroban]
      rfl
    · cases kind with
      | classic => exact isLinkOver hclassic hash
      | soroban => exact isLinkOver hsoroban hash

/-- A bracket alone is no fault of the configuration, and neither a blank in front nor a port
without a host keeps a text from being a base. -/
theorem bracket_blank_and_port_escape :
    (∃ fault, ofBases "http://[" "https://x.test" = .error fault ∧
      fault.toFault = ⟨.invalidValue, "Invalid IPv6 URL"⟩) ∧
    (∃ links, ofBases " https://x.test" "https://x.test" = .ok links ∧
      links.link .classic "ab" = " https://x.test/ab" ∧
      ¬ IsWebLink (links.link .classic "ab").toList) ∧
    ∃ links, ofBases "http://:80" "https://x.test" = .ok links ∧
      links.link .classic "ab" = "http://:80/ab" ∧
      ¬ IsWebLink (links.link .classic "ab").toList := by
  refine ⟨⟨_, rfl, rfl⟩, ⟨⟨" https://x.test", "https://x.test"⟩, rfl, by decide +kernel, ?_⟩,
    ⟨⟨"http://:80", "https://x.test"⟩, rfl, by decide +kernel, ?_⟩⟩
  · intro hlink
    obtain ⟨c, hc, halpha⟩ := (Authority.isWebLink_iff_hasAuthority.1 hlink).1.exists_head?
    obtain rfl : ' ' = c := Option.some.inj hc
    exact absurd halpha (by decide)
  · intro hlink
    exact (Authority.isWebLink_iff_splitScheme.1 hlink).2 (by decide +kernel)

end ExplorerLinks

end StellarWallet
