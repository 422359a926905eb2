import StellarWallet.Log.Settings
import StellarWallet.Proofs.Text.Cuts
import StellarWallet.Settings.Wallet

/-!
The folders that one variable of the environment leads to.

The variable is read twice: for the folder of the slots, and for the one of the log. Only the first
reading drops the blanks around the value, and neither takes a value of blanks for none where it
falls back to the default. So the two readings agree just if there are no blanks to drop or nothing
but blanks, and both follow the setting just if there are no blanks around the value.
-/

namespace StellarWallet

namespace Path

variable {setting : String} {p q r start : Path} {m : List Char} {c : Char}

/-! ### The home directory -/

/-- A path that does not start with the home of another user. -/
def IsOwn (p : Path) : Prop :=
  ∀ user rest, p.slashes = 0 → p.parts = ('~' :: user) :: rest → user = []

/-- An absolute home is no relative path. -/
lemma exists_home (h : setting.toList.head? = some '/') :
    ∃ start, home setting = .ok start ∧ start.slashes ≠ 0 := by
  obtain ⟨t, ht⟩ := List.head?_eq_some_iff.1 h
  have hfront : Text.dropEndWhile (· = '/') setting.toList <+: setting.toList :=
    Text.dropEndWhile_prefix _ _
  generalize hcs : Text.dropEndWhile (fun c => decide (c = '/')) setting.toList = cs at hfront
  cases cs with
  | nil =>
    refine ⟨ofText "/", ?_, by decide⟩
    rw [home, hcs]
    rfl
  | cons c r =>
    obtain ⟨s, hs⟩ := hfront
    obtain ⟨rfl, -⟩ := List.cons.inj (hs.trans ht)
    refine ⟨ofText (String.ofList ('/' :: r)), ?_, ?_⟩
    · rw [home, hcs]
      rfl
    · rw [ofText, String.toList_ofList]
      change leadingSlashes ('/' :: r) ≠ 0
      rw [leadingSlashes, List.takeWhile_cons_of_pos (by decide), List.length_cons]
      split
      · omega
      · omega
      · omega

/-- A path goes on from home, or it stays as it is, or the home of its user is not known. -/
lemma expand_cases (h : home setting = .ok start) (p : Path) :
    (∃ rest, p = ⟨0, ['~'] :: rest⟩ ∧
      p.expand setting = .ok ⟨start.slashes, start.parts ++ rest⟩) ∨
    p.expand setting = .ok p ∨ ¬ p.IsOwn ∧ p.expand setting = .error homeless := by
  unfold expand
  split
  · next user rest hslashes hparts =>
    by_cases huser : user = []
    · subst huser
      refine Or.inl ⟨rest, ?_, ?_⟩
      · rw [← hslashes, ← hparts]
      · rw [if_neg (by simp), h]
        rfl
    · refine Or.inr (Or.inr ⟨fun hown => huser (hown user rest hslashes hparts), ?_⟩)
      rw [if_pos huser]
  · exact Or.inr (Or.inl rfl)

lemma exists_expand (h : home setting = .ok start) (hown : p.IsOwn) :
    ∃ r, p.expand setting = .ok r := by
  obtain ⟨rest, -, hr⟩ | hr | ⟨hnot, -⟩ := expand_cases h p
  · exact ⟨_, hr⟩
  · exact ⟨_, hr⟩
  · exact absurd hown hnot

lemma expand_of_slashes (h : p.slashes ≠ 0) : p.expand setting = .ok p := by
  unfold expand
  split
  · next hslashes _ => exact absurd hslashes h
  · rfl

/-- Resolving the home again changes nothing. -/
lemma expand_expand (h : home setting = .ok start) (hstart : start.slashes ≠ 0)
    (hr : p.expand setting = .ok r) : r.expand setting = .ok r := by
  obtain ⟨rest, -, hp⟩ | hp | ⟨-, hp⟩ := expand_cases h p
  all_goals
    rw [hp] at hr
    cases hr
  · exact expand_of_slashes hstart
  · exact hp

/-- Of the paths with as many slashes in front, no two lead to the same place. -/
lemma eq_of_expand (h : home setting = .ok start) (hstart : start.slashes ≠ 0)
    (hslashes : p.slashes = q.slashes) (hp : p.expand setting = .ok r)
    (hq : q.expand setting = .ok r) : p = q := by
  obtain ⟨rest, rfl, hp'⟩ | hp' | ⟨-, hp'⟩ := expand_cases h p <;> rw [hp'] at hp <;> cases hp
  · obtain ⟨rest', rfl, hq'⟩ | hq' | ⟨-, hq'⟩ := expand_cases h q <;> rw [hq'] at hq
    · obtain rfl : rest' = rest := by simpa using hq
      rfl
    · cases hq
      exact absurd hslashes.symm hstart
    · cases hq
  · obtain ⟨rest', rfl, hq'⟩ | hq' | ⟨-, hq'⟩ := expand_cases h q <;> rw [hq'] at hq <;> cases hq
    · exact absurd hslashes hstart
    · rfl

/-! ### Blanks around the text of a path -/

/-- How many characters the parts of a path have. -/
def size (p : Path) : Nat := p.parts.flatten.length

lemma ne_of_isBlank {c : Char} (h : Text.isBlank c = true) : c ≠ '/' ∧ c ≠ '.' ∧ c ≠ '~' := by
  refine ⟨?_, ?_, ?_⟩
  all_goals
    rintro rfl
    exact absurd h (by decide)

/-- How many characters a piece brings to a path. -/
lemma length_filter_isPart (piece : List Char) :
    ([piece].filter isPart).flatten.length ≤ piece.length := by
  cases h : isPart piece <;> simp [h]

lemma isPart_of_mem {piece : List Char} (hmem : c ∈ piece) (hc : Text.isBlank c = true) :
    isPart piece = true := by
  have hne : piece ≠ [] ∧ piece ≠ ['.'] := by
    refine ⟨List.ne_nil_of_mem hmem, ?_⟩
    rintro rfl
    exact (ne_of_isBlank hc).2.1 (List.mem_singleton.1 hmem)
  rw [isPart, decide_eq_true hne.1, decide_eq_true hne.2]
  rfl

lemma size_cons (hc : Text.isBlank c = true) (cs : List Char) :
    (ofText (String.ofList cs)).size < (ofText (String.ofList (c :: cs))).size := by
  obtain ⟨first, rest, hcs, hccs⟩ := Text.pieces_cons (ne_of_isBlank hc).1 cs
  have hfirst := length_filter_isPart first
  have hpart : isPart (c :: first) = true := isPart_of_mem List.mem_cons_self hc
  rw [size, size, ofText, ofText, String.toList_ofList, String.toList_ofList, hcs, hccs,
    List.filter_cons_of_pos hpart, ← List.singleton_append, List.filter_append,
    List.flatten_append, List.length_append, List.flatten_cons, List.length_append,
    List.length_cons]
  omega

lemma size_concat (hc : Text.isBlank c = true) (cs : List Char) :
    (ofText (String.ofList cs)).size < (ofText (String.ofList (cs ++ [c]))).size := by
  obtain ⟨before, last, hpieces⟩ := Text.pieces_append '/' cs
  have hcs : Text.pieces '/' cs = before ++ [last] := by
    simpa using hpieces [] (by simp)
  have hccs := hpieces [c] (by simpa using (ne_of_isBlank hc).1.symm)
  have hlast := length_filter_isPart last
  have hpart : isPart (last ++ [c]) = true := isPart_of_mem (by simp) hc
  rw [size, size, ofText, ofText, String.toList_ofList, String.toList_ofList, hcs, hccs,
    List.filter_append, List.filter_append, List.filter_cons_of_pos hpart, List.flatten_append,
    List.flatten_append, List.length_append, List.length_append]
  simp only [List.filter_nil, List.flatten_cons, List.flatten_nil, List.append_nil,
    List.length_append, List.length_cons, List.length_nil]
  omega

lemma size_append_of_blank {before after : List Char} (hb : ∀ c ∈ before, Text.isBlank c = true)
    (ha : ∀ c ∈ after, Text.isBlank c = true) (cs : List Char) :
    (ofText (String.ofList cs)).size + before.length + after.length
      ≤ (ofText (String.ofList (before ++ cs ++ after))).size := by
  induction before with
  | nil =>
    induction after using List.reverseRecOn with
    | nil => simp
    | append_singleton r c ih =>
      have hr := ih fun c hc => ha c (List.mem_append_left _ hc)
      have hc := size_concat (ha c (by simp)) (cs ++ r)
      rw [List.nil_append, List.length_nil] at hr ⊢
      rw [List.length_append, List.length_singleton, ← List.append_assoc]
      omega
  | cons c r ih =>
    have hr := ih fun c hc => hb c (List.mem_cons_of_mem _ hc)
    have hc := size_cons (hb c List.mem_cons_self) (r ++ cs ++ after)
    rw [List.length_cons]
    simp only [List.cons_append]
    omega

/-- A blank in front makes a path that starts neither with a slash nor with a home. -/
lemma expand_of_blank (setting : String) (hc : Text.isBlank c = true) (cs : List Char) :
    (ofText (String.ofList (c :: cs))).slashes = 0 ∧
      (ofText (String.ofList (c :: cs))).expand setting
        = .ok (ofText (String.ofList (c :: cs))) := by
  obtain ⟨first, rest, -, hpieces⟩ := Text.pieces_cons (ne_of_isBlank hc).1 cs
  have hpart : isPart (c :: first) = true := isPart_of_mem List.mem_cons_self hc
  have hslashes : (ofText (String.ofList (c :: cs))).slashes = 0 := by
    rw [ofText, String.toList_ofList, leadingSlashes,
      List.takeWhile_cons_of_neg (by simpa using (ne_of_isBlank hc).1)]
    rfl
  have hparts : (ofText (String.ofList (c :: cs))).parts = (c :: first) :: rest.filter isPart := by
    rw [ofText, String.toList_ofList, hpieces, List.filter_cons_of_pos hpart]
  refine ⟨hslashes, ?_⟩
  unfold expand
  split
  · next hhome =>
    rw [hparts] at hhome
    obtain ⟨hfirst, -⟩ := List.cons.inj hhome
    exact absurd (List.cons.inj hfirst).1 (ne_of_isBlank hc).2.2
  · rfl

/-- Blanks at the end of a text leave the slashes in front as they are. -/
lemma slashes_append_of_blank {after : List Char} (ha : ∀ c ∈ after, Text.isBlank c = true)
    (cs : List Char) :
    (ofText (String.ofList (cs ++ after))).slashes = (ofText (String.ofList cs)).slashes := by
  have hnone : after.takeWhile (fun c => decide (c = '/')) = [] := by
    cases after with
    | nil => rfl
    | cons c r =>
      have hc := (ne_of_isBlank (ha c List.mem_cons_self)).1
      exact List.takeWhile_cons_of_neg (by simpa using hc)
  rw [ofText, ofText, String.toList_ofList, String.toList_ofList]
  change leadingSlashes (cs ++ after) = leadingSlashes cs
  have htake : (cs ++ after).takeWhile (fun c => decide (c = '/'))
      = cs.takeWhile (fun c => decide (c = '/')) := by
    rw [List.takeWhile_append, hnone, List.append_nil]
    split
    · next hall => exact ((List.takeWhile_prefix _).eq_of_length hall).symm
    · rfl
  rw [leadingSlashes, leadingSlashes, htake]

/-- Where blanks around the text of a path count, it leads to another place. -/
lemma expand_ne_of_blank (h : home setting = .ok start) (hstart : start.slashes ≠ 0)
    {before after : List Char} (hb : ∀ c ∈ before, Text.isBlank c = true)
    (ha : ∀ c ∈ after, Text.isBlank c = true) (hne : before ++ m ++ after ≠ m)
    (hm : (ofText (String.ofList m)).expand setting = .ok r) :
    (ofText (String.ofList (before ++ m ++ after))).expand setting ≠ .ok r := by
  intro hsame
  have hsize := size_append_of_blank hb ha m
  have heq : ofText (String.ofList m) = ofText (String.ofList (before ++ m ++ after)) := by
    cases before with
    | nil => exact eq_of_expand h hstart (slashes_append_of_blank ha m).symm hm hsame
    | cons c s =>
      obtain ⟨hslashes, hexpand⟩ := expand_of_blank setting (hb c List.mem_cons_self)
        (s ++ m ++ after)
      obtain rfl : ofText (String.ofList (c :: s ++ m ++ after)) = r :=
        Except.ok.inj (hexpand.symm.trans hsame)
      obtain ⟨rest, -, hm'⟩ | hm' | ⟨-, hm'⟩ := expand_cases h (ofText (String.ofList m))
      all_goals rw [hm'] at hm
      · have hzero := congrArg Path.slashes (Except.ok.inj hm)
        exact absurd (hzero.trans hslashes) hstart
      · exact Except.ok.inj hm
      · cases hm
  rw [← heq] at hsize
  have hbefore : before = [] := List.eq_nil_of_length_eq_zero (by omega)
  have hafter : after = [] := List.eq_nil_of_length_eq_zero (by omega)
  exact hne (by rw [hbefore, hafter, List.nil_append, List.append_nil])

/-- A text of blanks is a path of one part. -/
lemma ofText_of_isAllBlank {v : String} (hv : v ≠ "") (hblank : Text.isAllBlank v.toList = true) :
    ofText v = ⟨0, [v.toList]⟩ := by
  have hall := List.all_eq_true.1 hblank
  have hne : v.toList ≠ [] := fun hnil => hv (String.toList_eq_nil_iff.1 hnil)
  obtain ⟨c, r, hcr⟩ := List.exists_cons_of_ne_nil hne
  have hc : Text.isBlank c = true := hall c (hcr ▸ List.mem_cons_self)
  have hpieces : Text.pieces '/' v.toList = [v.toList] :=
    List.splitOnP_eq_singleton fun x hx => by simpa using (ne_of_isBlank (hall x hx)).1
  have hpart : isPart v.toList = true := isPart_of_mem (hcr ▸ List.mem_cons_self) hc
  have hslashes := (expand_of_blank "" hc r).1
  rw [← hcr, String.ofList_toList] at hslashes
  rw [← hslashes, ofText, hpieces, List.filter_cons_of_pos hpart, List.filter_nil]

end Path

namespace Environment

variable {env : Environment} {v : String} {start folder : Path}

/-- Where the slots are stored. -/
def slotFolder (env : Environment) : Except Fault Path := do
  (← WalletSettings.ofEnvironment env).slotDirectory env

/-- Where the log is written. -/
def logFolder (env : Environment) : Except Fault Path := do
  (← LogSettings.ofEnvironment env).folder env

/-- The folder of the setting, and the default where nothing is set. -/
def settingFolder (env : Environment) : Except Fault Path :=
  match env.setting? "DIR" with
  | some s => (Path.ofText s).expand env.home
  | none => env.defaultDirectory

lemma slotFolder_of_setting {s : String} (hs : env.setting? "DIR" = some s) :
    env.slotFolder = ((Path.ofText s).expand env.home >>= (·.expand env.home)) := by
  rw [slotFolder, WalletSettings.ofEnvironment, hs]
  dsimp only
  cases (Path.ofText s).expand env.home <;> rfl

lemma slotFolder_of_not_setting (hs : env.setting? "DIR" = none) :
    env.slotFolder = env.storageDirectory none := by
  rw [slotFolder, WalletSettings.ofEnvironment, hs]
  rfl

/-- The log is where slots are kept without a setting. -/
lemma logFolder_eq (env : Environment) : env.logFolder = env.storageDirectory none := by
  rw [logFolder, LogSettings.ofEnvironment, storageDirectory]
  cases (env.value? "DIR").filter (· ≠ "") with
  | none => rfl
  | some s =>
    dsimp only [Option.filter_none]
    cases (Path.ofText s).expand env.home <;> rfl

lemma storageDirectory_of_value (hv : env.value? "DIR" = some v) (hne : v ≠ "") :
    env.storageDirectory none = (Path.ofText v).expand env.home := by
  have hfilled : (some v).filter (· ≠ "") = some v := by simp [hne]
  rw [storageDirectory, hv, hfilled]
  rfl

lemma storageDirectory_of_empty (hv : ∀ v, env.value? "DIR" = some v → v = "") :
    env.storageDirectory none = env.defaultDirectory := by
  have hnone : (env.value? "DIR").filter (· ≠ "") = none := by
    rw [Option.filter_eq_none_iff]
    intro v hmem
    simpa using hv v hmem
  rw [storageDirectory, hnone]
  rfl

lemma exists_defaultDirectory (h : Path.home env.home = .ok start) (hstart : start.slashes ≠ 0) :
    ∃ folder, env.defaultDirectory = .ok folder ∧ folder.slashes ≠ 0 := by
  refine ⟨start.join (Path.ofText ".config/arena-wallet"), ?_, hstart⟩
  rw [defaultDirectory, h]
  rfl

/-- What becomes of a value. -/
structure IsFolderOf (env : Environment) (v : String) (folder : Path) : Prop where
  /-- A value of blanks names a folder of blanks. -/
  blank : v ≠ "" → Text.isAllBlank v.toList = true →
    env.slotFolder = .ok ⟨0, [v.toList]⟩ ∧ env.logFolder = .ok ⟨0, [v.toList]⟩
  /-- Of any other value only the log keeps the blanks. -/
  filled : Text.isAllBlank v.toList = false →
    env.slotFolder = .ok folder ∧ env.logFolder = (Path.ofText v).expand env.home
  same_iff : env.logFolder = env.slotFolder ↔
    Text.isAllBlank v.toList = true ∨ Text.strip v.toList = v.toList
  follow_iff : env.slotFolder = .ok folder ∧ env.logFolder = .ok folder ↔
    Text.strip v.toList = v.toList

lemma isFolderOf_of_empty (hv : env.value? "DIR" = some "") (hf : env.settingFolder = .ok folder) :
    env.IsFolderOf "" folder := by
  have hsetting : env.setting? "DIR" = none := by
    rw [setting?, hv]
    rfl
  have hdefault : env.storageDirectory none = .ok folder := by
    rw [settingFolder, hsetting] at hf
    exact (storageDirectory_of_empty fun v h => (Option.some.inj (hv.symm.trans h)).symm).trans hf
  have hslot := (slotFolder_of_not_setting hsetting).trans hdefault
  have hlog := env.logFolder_eq.trans hdefault
  exact ⟨fun hne => absurd rfl hne, nofun, iff_of_true (hlog.trans hslot.symm) (Or.inl rfl),
    iff_of_true ⟨hslot, hlog⟩ rfl⟩

lemma isFolderOf_of_isAllBlank (hstart : start.slashes ≠ 0) (hhome : Path.home env.home = .ok start)
    (hv : env.value? "DIR" = some v) (hne : v ≠ "") (hblank : Text.isAllBlank v.toList = true)
    (hf : env.settingFolder = .ok folder) : env.IsFolderOf v folder := by
  have hsetting : env.setting? "DIR" = none := by
    rw [setting?, hv]
    exact if_pos hblank
  obtain ⟨c, r, hcr⟩ := List.exists_cons_of_ne_nil (mt String.toList_eq_nil_iff.1 hne)
  have hc : Text.isBlank c = true := List.all_eq_true.1 hblank c (hcr ▸ List.mem_cons_self)
  have hpath : env.storageDirectory none = .ok ⟨0, [v.toList]⟩ := by
    have hexpand := (Path.expand_of_blank env.home hc r).2
    rw [← hcr, String.ofList_toList, Path.ofText_of_isAllBlank hne hblank] at hexpand
    rw [storageDirectory_of_value hv hne, Path.ofText_of_isAllBlank hne hblank, hexpand]
  have hslot := (slotFolder_of_not_setting hsetting).trans hpath
  have hlog := env.logFolder_eq.trans hpath
  refine ⟨fun _ _ => ⟨hslot, hlog⟩, fun hfilled => absurd hblank (by rw [hfilled]; simp),
    iff_of_true (hlog.trans hslot.symm) (Or.inl hblank), iff_of_false ?_ ?_⟩
  · rintro ⟨hfolder, -⟩
    obtain ⟨d, hd, hslashes⟩ := exists_defaultDirectory hhome hstart
    rw [settingFolder, hsetting] at hf
    obtain rfl : d = folder := Except.ok.inj (hd.symm.trans hf)
    exact hslashes (congrArg Path.slashes (Except.ok.inj (hfolder.symm.trans hslot)))
  · rw [Text.strip_eq_nil_iff.2 hblank, hcr]
    exact nofun

lemma isFolderOf_of_filled (hstart : start.slashes ≠ 0) (hhome : Path.home env.home = .ok start)
    (hv : env.value? "DIR" = some v) (hfilled : Text.isAllBlank v.toList = false)
    (hf : env.settingFolder = .ok folder) : env.IsFolderOf v folder := by
  have hblank : ¬ Text.isAllBlank v.toList = true := by
    rw [hfilled]
    simp
  have hsetting : env.setting? "DIR" = some (String.ofList (Text.strip v.toList)) := by
    rw [setting?, hv]
    exact if_neg hblank
  have hexpand : (Path.ofText (String.ofList (Text.strip v.toList))).expand env.home
      = .ok folder := by
    rw [settingFolder, hsetting] at hf
    exact hf
  have hslot : env.slotFolder = .ok folder := by
    rw [slotFolder_of_setting hsetting, hexpand]
    exact Path.expand_expand hhome hstart hexpand
  have hlog : env.logFolder = (Path.ofText v).expand env.home := by
    rw [logFolder_eq, storageDirectory_of_value hv]
    rintro rfl
    exact hblank rfl
  have hfollow : env.logFolder = .ok folder ↔ Text.strip v.toList = v.toList := by
    rw [hlog]
    constructor
    · intro hsame
      by_contra hne
      obtain ⟨before, after, hcs, hb, ha⟩ := Text.exists_blanks_around v.toList
      rw [← String.ofList_toList (s := v), hcs] at hsame
      exact Path.expand_ne_of_blank hhome hstart hb ha (fun he => hne (hcs.trans he).symm) hexpand
        hsame
    · intro htrimmed
      rwa [htrimmed, String.ofList_toList] at hexpand
  refine ⟨fun _ h => absurd h hblank, fun _ => ⟨hslot, hlog⟩, ?_, ?_⟩
  · rw [hslot, hfollow, or_iff_right hblank]
  · rw [and_iff_right hslot, hfollow]

/-- **One setting, and where it leads.** With an absolute home, and a setting that is not in the
home of another user, there is a folder of the setting, and it is that of the slots and of the log
if the variable is not there. A value is followed by both just if there are no blanks around it; the
two are the same just if it is followed or consists of blanks, in which case they are in a folder
with a name of blanks. -/
theorem folders_follow_setting (h : env.home.toList.head? = some '/')
    (hown : ∀ s, env.setting? "DIR" = some s → (Path.ofText s).IsOwn) :
    ∃ folder, env.settingFolder = .ok folder ∧
      (env.value? "DIR" = none → env.slotFolder = .ok folder ∧ env.logFolder = .ok folder) ∧
      ∀ v, env.value? "DIR" = some v → env.IsFolderOf v folder := by
  obtain ⟨start, hhome, hstart⟩ := Path.exists_home h
  obtain ⟨folder, hf⟩ : ∃ folder, env.settingFolder = .ok folder := by
    rw [settingFolder]
    cases hs : env.setting? "DIR" with
    | some s => exact Path.exists_expand hhome (hown s hs)
    | none =>
      obtain ⟨folder, hfolder, -⟩ := exists_defaultDirectory hhome hstart
      exact ⟨folder, hfolder⟩
  refine ⟨folder, hf, fun hv => ?_, fun v hv => ?_⟩
  · have hsetting : env.setting? "DIR" = none := by rw [setting?, hv]
    have hdefault : env.storageDirectory none = .ok folder := by
      rw [settingFolder, hsetting] at hf
      exact (storageDirectory_of_empty fun v hs => nomatch hv.symm.trans hs).trans hf
    exact ⟨(slotFolder_of_not_setting hsetting).trans hdefault, env.logFolder_eq.trans hdefault⟩
  · by_cases hblank : Text.isAllBlank v.toList = true
    · by_cases hne : v = ""
      · subst hne
        exact isFolderOf_of_empty hv hf
      · exact isFolderOf_of_isAllBlank hstart hhome hv hne hblank hf
    · exact isFolderOf_of_filled hstart hhome hv (Bool.eq_false_iff.2 hblank) hf

/-- A folder at home is followed. -/
theorem folder_at_home_is_followed :
    let env : Environment := [("HOME", "/home/tester"), ("ARENA_WALLET_DIR", "~/w")]
    let folder : Path := ⟨1, ["home".toList, "tester".toList, "w".toList]⟩
    env.slotFolder = .ok folder ∧ env.logFolder = .ok folder := by
  intro env folder
  have hown : ∀ s, env.setting? "DIR" = some s → (Path.ofText s).IsOwn := by
    intro s hs user rest _ hparts
    obtain rfl : "~/w" = s := Option.some.inj hs
    have hhome : ['~'] :: ["w".toList] = ('~' :: user) :: rest := hparts
    exact (List.cons.inj (List.cons.inj hhome).1).2.symm
  obtain ⟨path, hpath, -, hvalue⟩ := folders_follow_setting (by decide) hown
  have hfolder : env.settingFolder = .ok folder := by decide +kernel
  obtain rfl : folder = path := Except.ok.inj (hfolder.symm.trans hpath)
  exact (hvalue "~/w" rfl).follow_iff.2 (by decide +kernel)

/-- Blanks around a value lead the log elsewhere, and a value of blanks is no default. -/
theorem blanks_part_the_folders :
    let home := ("HOME", "/home/tester")
    let spaced : Environment := [home, ("ARENA_WALLET_DIR", " /data ")]
    let blank : Environment := [home, ("ARENA_WALLET_DIR", "  ")]
    spaced.slotFolder = .ok ⟨1, ["data".toList]⟩ ∧
      spaced.logFolder = .ok ⟨0, [" ".toList, "data ".toList]⟩ ∧
      blank.slotFolder = .ok ⟨0, ["  ".toList]⟩ ∧
      blank.settingFolder
        = .ok ⟨1, ["home".toList, "tester".toList, ".config".toList, "arena-wallet".toList]⟩ := by
  decide +kernel

end Environment

end StellarWallet
