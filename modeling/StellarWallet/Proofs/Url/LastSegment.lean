import StellarWallet.Proofs.Balance.Requests
import StellarWallet.Proofs.Confirmation.FirstDecision
import StellarWallet.Proofs.Text.Cuts
import StellarWallet.Proofs.Url.Percent

/-!
A text in a link keeps to its segment.

A link is cut into pieces at its slashes, a query and a fragment. A segment at the end of a link
belongs to the last of them as a whole, so that no text adds a part to the links that it is put
into, and none changes their host. That holds of the links to an explorer, and of the requests for
an account and for a transaction.
-/

namespace StellarWallet

/-! ### The parts of a link -/

/-- The parts of a link: what stands between the slashes before its query, which is its scheme, its
authority and the segments of its path; its query; and its fragment. -/
structure LinkParts where
  pieces : List (List Char)
  query : Option (List Char)
  fragment : Option (List Char)
  deriving DecidableEq

namespace LinkParts

def ofText (cs : List Char) : LinkParts :=
  let (front, fragment) := Text.cut '#' cs
  let (path, query) := Text.cut '?' front
  ⟨Text.pieces '/' path, query, fragment⟩

/-- The parts with a text at the end of the last one. -/
def extend (p : LinkParts) (s : List Char) : LinkParts :=
  match p.fragment, p.query with
  | some fragment, _ => { p with fragment := some (fragment ++ s) }
  | none, some query => { p with query := some (query ++ s) }
  | none, none => { p with pieces := p.pieces.dropLast ++ [p.pieces.getLast?.getD [] ++ s] }

variable {s : List Char}

/-- A segment at the end of a link belongs to its last part. -/
lemma ofText_append (cs : List Char) (hs : Percent.IsSegment s) :
    ofText (cs ++ s) = (ofText cs).extend s := by
  have hnumber : '#' ∉ s := hs.not_mem (by decide)
  have hquestion : '?' ∉ s := hs.not_mem (by decide)
  have hslash : '/' ∉ s := hs.not_mem (by decide)
  unfold ofText
  rcases Text.cut_cases '#' cs with ⟨hcs, hcut⟩ | ⟨front, fragment, rfl, hfront, hcut⟩
  · have hcut' : Text.cut '#' (cs ++ s) = (cs ++ s, none) :=
      Text.cut_of_notMem fun h => (List.mem_append.1 h).elim hcs hnumber
    rw [hcut, hcut']
    dsimp only
    rcases Text.cut_cases '?' cs with ⟨hcs, hcut⟩ | ⟨path, query, rfl, hpath, hcut⟩
    · have hcut' : Text.cut '?' (cs ++ s) = (cs ++ s, none) :=
        Text.cut_of_notMem fun h => (List.mem_append.1 h).elim hcs hquestion
      obtain ⟨before, last, hpieces⟩ := Text.pieces_append '/' cs
      have hnil : Text.pieces '/' cs = before ++ [last] := by
        simpa using hpieces [] (by simp)
      rw [hcut, hcut', hpieces s hslash, hnil]
      simp [extend]
    · rw [hcut, List.append_assoc, List.cons_append, Text.cut_append_cons hpath]
      rfl
  · rw [hcut, List.append_assoc, List.cons_append, Text.cut_append_cons hfront]
    rfl

end LinkParts

/-! ### The host of a link -/

namespace Authority

variable {cs s r : List Char}

/-- A character that counts wherever it stands in a link. -/
def IsVisible (c : Char) : Prop := 32 < c.toNat

instance (c : Char) : Decidable (IsVisible c) := inferInstanceAs (Decidable (_ < _))

lemma filter_of_isVisible (hs : ∀ c ∈ s, IsVisible c) :
    (s.filter fun c => c ≠ '\t' && c ≠ '\r' && c ≠ '\n') = s := by
  rw [List.filter_eq_self]
  intro c hc
  have hlt : 32 < c.toNat := hs c hc
  have hne : c ≠ '\t' ∧ c ≠ '\r' ∧ c ≠ '\n' := by
    refine ⟨?_, ?_, ?_⟩
    all_goals
      rintro rfl
      exact absurd hlt (by decide)
  simp [hne]

/-- What comes after a text counts as it is, if it is visible. -/
lemma significant_append (cs : List Char) : ∃ start, ∀ s, (∀ c ∈ s, IsVisible c) →
    significant (cs ++ s) = start ++ s := by
  refine ⟨significant cs, fun s hs => ?_⟩
  have hdrop : (cs ++ s).dropWhile (fun c => decide (c.toNat ≤ 32))
      = cs.dropWhile (fun c => decide (c.toNat ≤ 32)) ++ s := by
    have hvisible : s.dropWhile (fun c => decide (c.toNat ≤ 32)) = s := by
      cases s with
      | nil => rfl
      | cons c r =>
        have hlt : 32 < c.toNat := hs c List.mem_cons_self
        exact List.dropWhile_cons_of_neg (by simpa using hlt)
    rw [List.dropWhile_append, hvisible]
    split
    · next h => rw [List.isEmpty_iff.1 h, List.nil_append]
    · rfl
  rw [significant, significant, hdrop, List.filter_append, filter_of_isVisible hs]

lemma splitScheme_append (cs : List Char) : ∃ scheme rest, ∀ s, ':' ∉ s →
    splitScheme (cs ++ s) = (scheme, rest ++ s) := by
  rcases Text.cut_cases ':' cs with ⟨hcs, -⟩ | ⟨scheme, rest, rfl, hscheme, -⟩
  · refine ⟨[], cs, fun s hs => ?_⟩
    rw [splitScheme, Text.cut_of_notMem fun h => (List.mem_append.1 h).elim hcs hs]
  · by_cases hvalid : ((scheme.head?.any Char.isAlpha) && scheme.all isSchemeChar) = true
    · refine ⟨scheme.map Char.toLower, rest, fun s _ => ?_⟩
      rw [splitScheme, List.append_assoc, List.cons_append, Text.cut_append_cons hscheme]
      exact if_pos hvalid
    · refine ⟨[], scheme ++ ':' :: rest, fun s _ => ?_⟩
      rw [splitScheme, List.append_assoc, List.cons_append, Text.cut_append_cons hscheme]
      exact if_neg hvalid

/-- Once an authority is closed by a slash, what comes after it does not count. -/
lemma authorityOf_append (hr : r ≠ ['/']) (hs : '/' ∉ s) :
    authorityOf (r ++ '/' :: s) = authorityOf (r ++ ['/']) := by
  match r, hr with
  | [], _ =>
    cases s with
    | nil => rfl
    | cons c s =>
      have hc : c ≠ '/' := fun he => hs (he ▸ List.mem_cons_self)
      simp [authorityOf, hc]
  | [a], hr =>
    have ha : a ≠ '/' := fun he => hr (he ▸ rfl)
    simp [authorityOf, ha]
  | a :: b :: y, _ =>
    by_cases h : a = '/' ∧ b = '/'
    · obtain ⟨rfl, rfl⟩ := h
      simp [authorityOf, List.takeWhile_append]
    · have hne : ∀ z, authorityOf (a :: b :: z) = [] := by
        intro z
        unfold authorityOf
        split
        · next he =>
          injection he with ha he
          injection he with hb _
          exact absurd ⟨ha, hb⟩ h
        · rfl
      rw [List.cons_append, List.cons_append, List.cons_append, List.cons_append, hne, hne]

/-- Once a text follows another, what it adds to the authority is all that it can change. -/
lemma exists_split (cs : List Char) : ∃ scheme rest, ∀ s, (∀ c ∈ s, IsVisible c) → ':' ∉ s →
    split (String.ofList (cs ++ s))
      = (check (authorityOf (rest ++ s))).map fun _ => (scheme, authorityOf (rest ++ s)) := by
  obtain ⟨start, hstart⟩ := significant_append cs
  obtain ⟨scheme, rest, hsplit⟩ := splitScheme_append start
  refine ⟨scheme, rest, fun s hs hcolon => ?_⟩
  rw [split, String.toList_ofList, hstart s hs, hsplit s hcolon]
  dsimp only
  cases check (authorityOf (rest ++ s)) <;> rfl

/-- A character that may stand in an authority. -/
def isHostChar (c : Char) : Bool := c ≠ '/' && c ≠ '?' && c ≠ '#'

lemma takeWhile_append_of_head {y t : List Char} (ht : ∀ c, t.head? = some c → c = '/') :
    (y ++ t).takeWhile isHostChar = y.takeWhile isHostChar := by
  induction y with
  | nil =>
    cases t with
    | nil => rfl
    | cons c t =>
      obtain rfl : c = '/' := ht c rfl
      rfl
  | cons c y ih =>
    rw [List.cons_append, List.takeWhile_cons, List.takeWhile_cons, ih]

/-- An authority that is there ends before the slashes at the end of a link. -/
lemma authorityOf_of_slashes (hcs : ∀ c ∈ cs, c = '/') (h : authorityOf (r ++ cs) ≠ [])
    (s : List Char) : authorityOf (r ++ '/' :: s) = authorityOf (r ++ cs) := by
  obtain ⟨c, z, he, hc⟩ : ∃ c z, r ++ cs = '/' :: '/' :: c :: z ∧ c ≠ '/' := by
    unfold authorityOf at h
    split at h
    · next y he =>
      cases y with
      | nil => exact absurd rfl h
      | cons c z =>
        refine ⟨c, z, he, ?_⟩
        rintro rfl
        exact h rfl
    · exact absurd rfl h
  have hmem : c ∉ cs := fun hm => hc (hcs c hm)
  -- The character after the two slashes is no slash, so it belongs to `r`.
  rcases r with _ | ⟨a, _ | ⟨b, _ | ⟨d, r⟩⟩⟩
  all_goals simp only [List.cons_append, List.nil_append, List.cons.injEq] at he
  · subst he
    simp at hmem
  · obtain ⟨-, rfl⟩ := he
    simp at hmem
  · obtain ⟨-, -, rfl⟩ := he
    simp at hmem
  · obtain ⟨rfl, rfl, -, -⟩ := he
    have hslash : ∀ c, ('/' :: s).head? = some c → c = '/' := by simp
    have hend : ∀ c, cs.head? = some c → c = '/' := fun c hc => hcs c (List.mem_of_head? hc)
    exact (takeWhile_append_of_head hslash).trans (takeWhile_append_of_head hend).symm

lemma isVisible_of_isSegmentChar {c : Char} (h : Percent.IsSegmentChar c) : IsVisible c := by
  unfold IsVisible
  rcases h with (h | h) | h
  · rw [Char.isAlphanum, Bool.or_eq_true] at h
    rcases h with h | h
    · rcases Bool.or_eq_true_iff.1 h with h | h
      · have hcapital : 65 ≤ c.toNat := (of_decide_eq_true h).1
        omega
      · have hsmall : 97 ≤ c.toNat := of_decide_eq_true (Bool.and_eq_true_iff.1 h).1
        omega
    · have hdigit : 48 ≤ c.toNat := (Char.isDigit_iff_toNat.1 h).1
      omega
  · rcases h with rfl | rfl | rfl | rfl
    all_goals decide
  · subst h
    decide

/-- A segment, with a path before it, is visible and holds no colon. -/
lemma visible_of_isSegment (hs : Percent.IsSegment s) {path : List Char}
    (hpath : ∀ c ∈ path, IsVisible c ∧ c ≠ ':') :
    (∀ c ∈ path ++ s, IsVisible c) ∧ ':' ∉ path ++ s := by
  have hcolon : ':' ∉ s := hs.not_mem (by decide)
  refine ⟨?_, fun h => (List.mem_append.1 h).elim (fun h => (hpath _ h).2 rfl) hcolon⟩
  intro c hc
  rcases List.mem_append.1 hc with hc | hc
  · exact (hpath c hc).1
  · exact isVisible_of_isSegmentChar (hs.isSegmentChar c hc)

/-- What follows a path of more than a slash is no part of the host. -/
lemma split_append_segment (cs : List Char) {path : List Char}
    (hpath : ∀ c ∈ path, IsVisible c ∧ c ≠ ':') (hlength : 2 ≤ path.length)
    (hs : Percent.IsSegment s) :
    split (String.ofList (cs ++ (path ++ '/' :: s)))
      = split (String.ofList (cs ++ (path ++ ['/']))) := by
  obtain ⟨scheme, rest, hsplit⟩ := exists_split cs
  have hslash : ∀ c ∈ path ++ ['/'], IsVisible c ∧ c ≠ ':' := by
    intro c hc
    rcases List.mem_append.1 hc with hc | hc
    · exact hpath c hc
    · obtain rfl := List.mem_singleton.1 hc
      decide
  obtain ⟨hvisible, hcolon⟩ := visible_of_isSegment hs hslash
  obtain ⟨hvisible', hcolon'⟩ := visible_of_isSegment .nil hslash
  rw [List.append_assoc, List.singleton_append] at hvisible hcolon
  rw [List.append_nil] at hvisible' hcolon'
  have hne : rest ++ path ≠ ['/'] := by
    intro he
    have hone : (rest ++ path).length = 1 := congrArg List.length he
    rw [List.length_append] at hone
    omega
  have hauthority := authorityOf_append hne (hs.not_mem (c := '/') (by decide))
  rw [List.append_assoc, List.append_assoc] at hauthority
  rw [hsplit _ hvisible hcolon, hsplit _ hvisible' hcolon', hauthority]

end Authority

namespace ExplorerLinks

lemma exists_slashes (s : String) :
    ∃ slashes, s.toList = (trimSlashes s).toList ++ slashes ∧ ∀ c ∈ slashes, c = '/' := by
  obtain ⟨slashes, hs, hall⟩ := Text.exists_dropped (· = '/') s.toList
  refine ⟨slashes, ?_, fun c hc => of_decide_eq_true (hall c hc)⟩
  rw [trimSlashes, String.toList_ofList]
  exact hs

lemma checkBase_eq_ok {title base b : String} (h : checkBase title base = .ok b) :
    b = trimSlashes base ∧ ∃ scheme authority,
      Authority.split base = .ok (scheme, authority) ∧ authority ≠ [] := by
  unfold checkBase at h
  split at h
  · cases h
  · next scheme authority hsplit =>
    split at h
    · next hvalid => exact ⟨(Except.ok.inj h).symm, scheme, authority, hsplit, hvalid.2⟩
    · cases h

/-- The base of each kind is the given one without slashes at its end. -/
lemma exists_checkBase {classic soroban : String} {links : ExplorerLinks}
    (h : ofBases classic soroban = .ok links) (kind : TxKind) : ∃ title,
    checkBase title ((⟨classic, soroban⟩ : ExplorerLinks).base kind) = .ok (links.base kind) := by
  unfold ofBases at h
  cases hclassic : checkBase "Stellar explorer base" classic with
  | error fault =>
    rw [hclassic] at h
    cases h
  | ok b =>
    cases hsoroban : checkBase "Soroban explorer base" soroban with
    | error fault =>
      rw [hclassic, hsoroban] at h
      cases h
    | ok b' =>
      rw [hclassic, hsoroban] at h
      obtain rfl : ⟨b, b'⟩ = links := Except.ok.inj h
      cases kind with
      | classic => exact ⟨_, hclassic⟩
      | soroban => exact ⟨_, hsoroban⟩

/-- A link has the host of its base. -/
lemma split_of_checkBase {title base b : String} (h : checkBase title base = .ok b)
    {s : List Char} (hs : Percent.IsSegment s) :
    Authority.split (String.ofList (b.toList ++ '/' :: s)) = Authority.split base := by
  obtain ⟨rfl, scheme, authority, hbase, hne⟩ := checkBase_eq_ok h
  obtain ⟨slashes, hslashes, hall⟩ := exists_slashes base
  obtain ⟨scheme', rest, hsplit⟩ := Authority.exists_split (trimSlashes base).toList
  have hslash : ∀ c ∈ ['/'], Authority.IsVisible c ∧ c ≠ ':' :=
    Text.forall_mem_of_all (by decide)
  obtain ⟨hvisible, hcolon⟩ := Authority.visible_of_isSegment hs hslash
  have hwhole : Authority.split base
      = (Authority.check (Authority.authorityOf (rest ++ slashes))).map fun _ =>
        (scheme', Authority.authorityOf (rest ++ slashes)) := by
    rw [← String.ofList_toList (s := base), hslashes]
    refine hsplit slashes (fun c hc => ?_) fun hc => absurd (hall _ hc) (by decide)
    obtain rfl := hall c hc
    decide
  have hpresent : Authority.authorityOf (rest ++ slashes) ≠ [] := by
    rw [hwhole] at hbase
    cases hcheck : Authority.check (Authority.authorityOf (rest ++ slashes)) with
    | error fault =>
      rw [hcheck] at hbase
      cases hbase
    | ok u =>
      rw [hcheck] at hbase
      obtain ⟨-, rfl⟩ := Prod.mk.inj (Except.ok.inj hbase)
      exact hne
  rw [hwhole, ← Authority.authorityOf_of_slashes hall hpresent s]
  exact hsplit _ hvisible hcolon

end ExplorerLinks

/-! ### The three links -/

/-- A link ends with a text as one segment: it goes on from the stem with unreserved characters and
escapes only, which are read as the text, belong to the last part of the link and leave its host as
it is. -/
structure EndsInSegment (stem text link : String) : Prop where
  eq_append : link = stem ++ ExplorerLinks.segment text
  isSegment : Percent.IsSegment (ExplorerLinks.segment text).toList
  decode : Percent.decode (ExplorerLinks.segment text).toList = some text.toList
  parts : LinkParts.ofText link.toList
    = (LinkParts.ofText stem.toList).extend (ExplorerLinks.segment text).toList
  host : Authority.split link = Authority.split stem

lemma toList_segment (text : String) :
    (ExplorerLinks.segment text).toList = Percent.encode text.toList := String.toList_ofList

lemma isSegment_segment (text : String) :
    Percent.IsSegment (ExplorerLinks.segment text).toList := by
  rw [toList_segment]
  exact Percent.isSegment_encode text.toList

lemma decode_segment (text : String) :
    Percent.decode (ExplorerLinks.segment text).toList = some text.toList := by
  rw [toList_segment, Percent.decode_encode]

lemma endsInSegment {stem : String} (text : String)
    (hhost : Authority.split (stem ++ ExplorerLinks.segment text) = Authority.split stem) :
    EndsInSegment stem text (stem ++ ExplorerLinks.segment text) where
  eq_append := rfl
  isSegment := isSegment_segment text
  decode := decode_segment text
  parts := by
    rw [String.toList_append]
    exact LinkParts.ofText_append _ (isSegment_segment text)
  host := hhost

/-- Texts with the same segment are the same. -/
lemma segment_injective {text text' : String}
    (h : ExplorerLinks.segment text' = ExplorerLinks.segment text) : text' = text := by
  have hdecode := decode_segment text
  rw [← h, decode_segment text'] at hdecode
  exact String.toList_inj.1 (Option.some.inj hdecode)

/-- Links over a base with a path end in the segment. -/
lemma endsInSegment_path (base : String) (parts : List Char) {path : String}
    (hparts : path.toList = parts ++ ['/']) (hpath : ∀ c ∈ parts, Authority.IsVisible c ∧ c ≠ ':')
    (hlength : 2 ≤ parts.length) (text : String) :
    EndsInSegment (base ++ path) text (base ++ path ++ ExplorerLinks.segment text) := by
  refine endsInSegment text ?_
  have hsplit := Authority.split_append_segment base.toList hpath hlength (isSegment_segment text)
  have hlink : base.toList ++ (parts ++ '/' :: (ExplorerLinks.segment text).toList)
      = (base ++ path ++ ExplorerLinks.segment text).toList := by
    simp [hparts]
  have hstem : base.toList ++ (parts ++ ['/']) = (base ++ path).toList := by
    simp [hparts]
  rwa [hlink, hstem, String.ofList_toList, String.ofList_toList] at hsplit

namespace ExplorerLinks

lemma endsInSegment_link {title base b : String} (h : checkBase title base = .ok b)
    (text : String) : EndsInSegment (b ++ "/") text (b ++ "/" ++ segment text) ∧
      Authority.split (b ++ "/" ++ segment text) = Authority.split base := by
  have hsplit : ∀ t : String, Percent.IsSegment t.toList →
      Authority.split (b ++ "/" ++ t) = Authority.split base := by
    intro t ht
    have hlink : b.toList ++ '/' :: t.toList = (b ++ "/" ++ t).toList := by simp
    rw [← split_of_checkBase h ht, hlink, String.ofList_toList]
  have hlink := hsplit (segment text) (isSegment_segment text)
  have hstem : Authority.split (b ++ "/") = Authority.split base := by
    have := hsplit "" .nil
    rwa [String.append_empty] at this
  exact ⟨endsInSegment text (hlink.trans hstem.symm), hlink⟩

end ExplorerLinks

namespace WalletSettings

variable (s : WalletSettings) (text : String) (host : Host) (j : Journal)

/-- Polling sends the requests of its questions. -/
lemma requests_of_endsWithFirst {request : Nat → Request} {verdict : Nat → Verdict}
    {timeout : Fault} {n : Nat} {r : Except Fault Unit × Journal}
    (h : Confirmation.EndsWithFirst request verdict timeout n j r) :
    ∃ asked, r.2.requests = j.requests ++ (List.range asked).map request := by
  rcases h with ⟨k, -, -, -, htrace⟩ | ⟨-, -, htrace⟩
  · exact ⟨k + 1, htrace.1⟩
  · exact ⟨n, htrace.1⟩

lemma url_question (asked : Nat) : (s.question text .classic asked).url
    = trimSlashes s.horizon ++ "/transactions/" ++ ExplorerLinks.segment text := by
  have hhead : ("/transactions/" ++ ExplorerLinks.segment text).toList.head? = some '/' := by
    rw [String.toList_append]
    rfl
  have hbase : s.classicStateClient.base = trimSlashes s.horizon := rfl
  have hrequest : s.question text .classic asked = s.classicStateClient.request .get
      ("/transactions/" ++ ExplorerLinks.segment text) [] := rfl
  rw [hrequest, Client.request, s.classicStateClient.url_of_head hhead, hbase,
    ← String.append_assoc]

/-- All requests for the state of a classic transaction go to one link. -/
lemma requests_confirm :
    ∃ sent, (s.confirm text .classic host j).2.requests = j.requests ++ sent ∧
      ∀ request ∈ sent, request.url
        = trimSlashes s.horizon ++ "/transactions/" ++ ExplorerLinks.segment text := by
  have hnote := (Confirmation.poll_endsWithFirst Confirmation.classicTimeout host
    s.confirmation.classicAttempts.toNat 0 j (s.asks_classic text host)).note Confirmation.part .info
      ("Transaction " ++ text ++ " confirmed (" ++ Vocabulary.name TxKind.classic ++ ")")
  obtain ⟨asked, hasked⟩ := requests_of_endsWithFirst j hnote
  refine ⟨_, hasked, ?_⟩
  intro request hrequest
  obtain ⟨i, -, rfl⟩ := List.mem_map.1 hrequest
  exact s.url_question text (0 + i)

/-- All requests for the account of an address go to one link. -/
lemma requests_fetchAccount :
    ∃ sent, (s.fetchAccount text host j).2.requests = j.requests ++ sent ∧
      ∀ request ∈ sent, request.url
        = trimSlashes s.horizon ++ "/accounts/" ++ ExplorerLinks.segment text := by
  by_cases hretries : 0 ≤ s.retry.maxRetries
  · obtain ⟨events, delays, -, hevents, htraffic, -⟩ := s.fetchAccount_ends text host j hretries
    refine ⟨events.requests, by rw [hevents, Journal.requests_append], ?_⟩
    intro request hrequest
    rw [Journal.requests_of_traffic _ _ htraffic] at hrequest
    rw [List.eq_of_mem_replicate hrequest]
    rfl
  · obtain ⟨more, hmore, hrun⟩ := s.fetchAccount_eq text host j
    have hcall : (s.accountCall text host j).2 = j := by
      have hnever : s.ledgerClient.retry.maxRetries < 0 := Int.not_le.1 hretries
      rw [accountCall, Client.call, if_pos hnever]
      rfl
    have hsilent : more.requests = [] := by
      rw [← Journal.requests_traffic, hmore]
      rfl
    refine ⟨[], ?_, by simp⟩
    rw [hrun, hcall, Journal.requests_append, hsilent]

end WalletSettings

end StellarWallet
