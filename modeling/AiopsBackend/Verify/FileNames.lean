import AiopsBackend.Aws.Storage
import AiopsBackend.Lib.Lexicographic
import Mathlib.Data.String.Basic

/-!
# The order of file names and object keys

The `save_*` functions name a file by an instance id, an underscore and the timestamp. The text of
a timestamp has padded fields, so texts are ordered like the datetimes (`stem_lt_iff`); that the
microseconds are left out when they are zero does no harm, as `+` sorts before `.`. Names of one
instance are therefore ordered by time. Names of two instances are ordered by the ids
(`IdPrecedes`), the time playing a part only where one id continues the other by an underscore.
-/

namespace AiopsBackend

open Lib Lexicographic Paths

/-! ## Digits -/

section Digits

variable {w n m : Nat}

@[simp] theorem fixedDigits_length (w n : Nat) : (fixedDigits w n).length = w := by
  induction w with
  | zero => rfl
  | succ w ih => rw [fixedDigits, List.length_cons, ih]

theorem digitChar_lt_iff {i j : Nat} (hi : i < 10) (hj : j < 10) :
    Nat.digitChar i < Nat.digitChar j ↔ i < j := by
  have hall : ∀ i j : Fin 10, Nat.digitChar i < Nat.digitChar j ↔ i.val < j.val := by decide
  exact hall ⟨i, hi⟩ ⟨j, hj⟩

theorem digitChar_inj {i j : Nat} (hi : i < 10) (hj : j < 10) :
    Nat.digitChar i = Nat.digitChar j ↔ i = j := by
  have hall : ∀ i j : Fin 10, Nat.digitChar i = Nat.digitChar j ↔ i.val = j.val := by decide
  exact hall ⟨i, hi⟩ ⟨j, hj⟩

theorem digitChar_plain {i : Nat} (hi : i < 10) :
    Nat.digitChar i ≠ ':' ∧ Nat.digitChar i ≠ '_' ∧ Nat.digitChar i ≠ '/' := by
  have hall : ∀ i : Fin 10,
      Nat.digitChar i ≠ ':' ∧ Nat.digitChar i ≠ '_' ∧ Nat.digitChar i ≠ '/' := by decide
  exact hall ⟨i, hi⟩

theorem fixedDigits_plain {c : Char} (hc : c ∈ fixedDigits w n) : c ≠ ':' ∧ c ≠ '_' ∧ c ≠ '/' := by
  induction w with
  | zero => exact absurd hc List.not_mem_nil
  | succ w ih =>
    rcases List.mem_cons.1 hc with rfl | hc
    · exact digitChar_plain (Nat.mod_lt _ (by decide))
    · exact ih hc

/-- Padded numerals are ordered like the numbers they show. -/
theorem fixedDigits_lt_iff_mod :
    fixedDigits w n < fixedDigits w m ↔ n % 10 ^ w < m % 10 ^ w := by
  induction w with
  | zero => simp [fixedDigits, Nat.mod_one]
  | succ w ih =>
    have hn : n / 10 ^ w % 10 < 10 := Nat.mod_lt _ (by decide)
    have hm : m / 10 ^ w % 10 < 10 := Nat.mod_lt _ (by decide)
    have hlow : n % 10 ^ w < 10 ^ w := Nat.mod_lt _ (Nat.pow_pos (by decide))
    have hlow' : m % 10 ^ w < 10 ^ w := Nat.mod_lt _ (Nat.pow_pos (by decide))
    rw [fixedDigits, fixedDigits, List.cons_lt_cons_iff, ih, digitChar_lt_iff hn hm,
      digitChar_inj hn hm, Nat.mod_pow_succ, Nat.mod_pow_succ]
    generalize n / 10 ^ w % 10 = i at *
    generalize m / 10 ^ w % 10 = j at *
    generalize n % 10 ^ w = k at *
    generalize m % 10 ^ w = l at *
    constructor
    · rintro (hij | ⟨rfl, hkl⟩)
      · have : 10 ^ w * (i + 1) ≤ 10 ^ w * j := Nat.mul_le_mul_left _ hij
        rw [Nat.mul_succ] at this
        omega
      · omega
    · intro h
      rcases Nat.lt_trichotomy i j with hij | rfl | hji
      · exact .inl hij
      · exact .inr ⟨rfl, by omega⟩
      · have : 10 ^ w * (j + 1) ≤ 10 ^ w * i := Nat.mul_le_mul_left _ hji
        rw [Nat.mul_succ] at this
        omega

theorem fixedDigits_lt_iff (hn : n < 10 ^ w) (hm : m < 10 ^ w) :
    fixedDigits w n < fixedDigits w m ↔ n < m := by
  rw [fixedDigits_lt_iff_mod, Nat.mod_eq_of_lt hn, Nat.mod_eq_of_lt hm]

theorem fixedDigits_inj (hn : n < 10 ^ w) (hm : m < 10 ^ w) :
    fixedDigits w n = fixedDigits w m ↔ n = m := by
  constructor
  · intro h
    by_contra hne
    rcases Nat.lt_or_gt_of_ne hne with hlt | hlt
    · exact absurd ((fixedDigits_lt_iff hn hm).2 hlt) (h ▸ lt_irrefl _)
    · exact absurd ((fixedDigits_lt_iff hm hn).2 hlt) (h ▸ lt_irrefl _)
  · rintro rfl
    rfl

/-- Two padded numerals before a common separator: the first difference decides. -/
theorem fixedDigits_append_lt_iff (hn : n < 10 ^ w) (hm : m < 10 ^ w) {x y : List Char} :
    fixedDigits w n ++ x < fixedDigits w m ++ y ↔ n < m ∨ (n = m ∧ x < y) := by
  rw [append_lt_append_iff (by simp), fixedDigits_lt_iff hn hm, fixedDigits_inj hn hm]

end Digits

/-! ## Timestamps -/

namespace Datetime

variable {s t : Datetime}

/-- The microseconds as `isoformat` shows them. -/
def fraction (t : Datetime) : List Char :=
  if t.microsecond = 0 then [] else '.' :: fixedDigits 6 t.microsecond

/-- What follows the underscore in a file name. -/
def stem (t : Datetime) : List Char :=
  fixedDigits 4 t.year ++ '-' :: (fixedDigits 2 t.month ++ '-' :: (fixedDigits 2 t.day ++
    'T' :: (fixedDigits 2 t.hour ++ '-' :: (fixedDigits 2 t.minute ++
    '-' :: (fixedDigits 2 t.second ++ (t.fraction ++ "+00-00.json".toList))))))

theorem map_fixedDigits (w n : Nat) :
    (fixedDigits w n).map (fun c => if c = ':' then '-' else c) = fixedDigits w n := by
  refine (List.map_congr_left ?_).trans (List.map_id _)
  intro c hc
  exact if_neg (fixedDigits_plain hc).1

theorem stem_eq (t : Datetime) : t.safeTimestamp.toList ++ ".json".toList = t.stem := by
  unfold safeTimestamp stem isoformatChars fraction
  rw [String.toList_ofList]
  by_cases hmicro : t.microsecond = 0
  · simp [map_fixedDigits, hmicro]
  · simp [map_fixedDigits, hmicro]

/-- No time at all sorts before a fraction of a second: `+` is less than `.`. -/
theorem fraction_lt_iff :
    s.fraction ++ "+00-00.json".toList < t.fraction ++ "+00-00.json".toList ↔
      s.microsecond < t.microsecond := by
  have hs := s.microsecond_le
  have ht := t.microsecond_le
  unfold fraction
  by_cases hzero : s.microsecond = 0
  · by_cases hzero' : t.microsecond = 0
    · rw [if_pos hzero, if_pos hzero']
      exact iff_of_false (lt_irrefl _) (by omega)
    · rw [if_pos hzero, if_neg hzero']
      exact iff_of_true (List.cons_lt_cons_iff.2 (.inl (by decide))) (by omega)
  · by_cases hzero' : t.microsecond = 0
    · rw [if_neg hzero, if_pos hzero']
      refine iff_of_false (fun h => ?_) (by omega)
      rcases List.cons_lt_cons_iff.1 h with h | ⟨h, -⟩
      · exact absurd h (by decide)
      · exact absurd h (by decide)
    · rw [if_neg hzero, if_neg hzero', List.cons_append, List.cons_append, List.cons_lt_cons_iff,
        fixedDigits_append_lt_iff (by omega) (by omega)]
      simp

theorem lt_iff : s < t ↔ s.year < t.year ∨ s.year = t.year ∧ (s.month < t.month ∨
    s.month = t.month ∧ (s.day < t.day ∨ s.day = t.day ∧ (s.hour < t.hour ∨ s.hour = t.hour ∧
    (s.minute < t.minute ∨ s.minute = t.minute ∧ (s.second < t.second ∨ s.second = t.second ∧
    s.microsecond < t.microsecond))))) := by
  change s.fields < t.fields ↔ _
  simp [fields, List.cons_lt_cons_iff]

/-- The texts of two times are ordered like the times. -/
theorem stem_lt_iff : s.stem < t.stem ↔ s < t := by
  have hcons : ∀ (c : Char) (x y : List Char), c :: x < c :: y ↔ x < y := by
    intro c x y
    simp
  have hs := s.year_le
  have ht := t.year_le
  have hs₁ := s.month_le
  have ht₁ := t.month_le
  have hs₂ := s.day_le
  have ht₂ := t.day_le
  have hs₃ := s.hour_le
  have ht₃ := t.hour_le
  have hs₄ := s.minute_le
  have ht₄ := t.minute_le
  have hs₅ := s.second_le
  have ht₅ := t.second_le
  unfold stem
  rw [fixedDigits_append_lt_iff (by omega) (by omega), hcons,
    fixedDigits_append_lt_iff (by omega) (by omega), hcons,
    fixedDigits_append_lt_iff (by omega) (by omega), hcons,
    fixedDigits_append_lt_iff (by omega) (by omega), hcons,
    fixedDigits_append_lt_iff (by omega) (by omega), hcons,
    fixedDigits_append_lt_iff (by omega) (by omega), fraction_lt_iff, lt_iff]

theorem lt_or_gt (h : s ≠ t) : s < t ∨ t < s := by
  have hfields : s.fields ≠ t.fields := by
    intro heq
    apply h
    cases s
    cases t
    simpa [fields] using heq
  exact lt_or_gt_of_ne hfields

theorem not_lt_self (t : Datetime) : ¬ t < t := lt_irrefl t.fields

theorem not_lt_of_lt (h : s < t) : ¬ t < s := by
  intro h'
  exact lt_asymm (show s.fields < t.fields from h) h'

theorem stem_injective (h : s.stem = t.stem) : s = t := by
  by_contra hne
  rcases lt_or_gt hne with hlt | hlt
  · exact absurd (stem_lt_iff.2 hlt) (h ▸ lt_irrefl _)
  · exact absurd (stem_lt_iff.2 hlt) (h ▸ lt_irrefl _)

theorem stem_plain {c : Char} (hc : c ∈ t.stem) : c ≠ '_' ∧ c ≠ '/' := by
  have hdigits : ∀ {w n : Nat}, c ∈ fixedDigits w n → c ≠ '_' ∧ c ≠ '/' :=
    fun h => (fixedDigits_plain h).2
  have hfraction : c ∈ t.fraction → c ≠ '_' ∧ c ≠ '/' := by
    unfold fraction
    split
    · exact fun h => absurd h List.not_mem_nil
    · intro h
      rcases List.mem_cons.1 h with rfl | h
      · decide
      · exact hdigits h
  have hend : c ∈ "+00-00.json".toList → c ≠ '_' ∧ c ≠ '/' := by
    have hall : "+00-00.json".toList.all (fun c => c != '_' && c != '/') = true := by decide
    intro h
    simpa using List.all_eq_true.1 hall c h
  simp only [stem, List.mem_append, List.mem_cons] at hc
  rcases hc with h | rfl | h | rfl | h | rfl | h | rfl | h | rfl | h | h | h
  · exact hdigits h
  · decide
  · exact hdigits h
  · decide
  · exact hdigits h
  · decide
  · exact hdigits h
  · decide
  · exact hdigits h
  · decide
  · exact hdigits h
  · exact hfraction h
  · exact hend h

end Datetime

/-! ## File names -/

section Names

variable {a b : String} {s t : Datetime}

/-- What precedes the timestamp in a file name. -/
def idKey (id : String) : List Char := id.toList ++ ['_']

/-- The id `a` comes before the id `b` in the names of files. Where neither continues the other by
an underscore, their order decides; else the rest of the longer one is compared with the text of the
time that stands in its place. -/
inductive IdPrecedes (a : String) (s : Datetime) (b : String) (t : Datetime) : Prop
  | diverge (hab : ¬ idKey a <+: idKey b) (hba : ¬ idKey b <+: idKey a) (hlt : idKey a < idKey b)
  | longer {rest : List Char} (hne : rest ≠ []) (hb : idKey b = idKey a ++ rest)
      (hlt : s.stem < rest)
  | shorter {rest : List Char} (hne : rest ≠ []) (ha : idKey a = idKey b ++ rest)
      (hlt : rest < t.stem)

theorem idKey_inj : idKey a = idKey b ↔ a = b := by
  unfold idKey
  rw [List.append_cancel_right_eq, String.toList_inj]

theorem timestampedName_toList (id : String) (t : Datetime) :
    (timestampedName id t).toList = idKey id ++ t.stem := by
  unfold timestampedName idKey
  rw [← Datetime.stem_eq, String.toList_append, String.toList_append, String.toList_append,
    List.append_assoc]
  rfl

/-- The rest of a longer id ends in an underscore, which no time contains. -/
theorem rest_not_prefix_stem {rest : List Char} (hne : rest ≠ [])
    (hb : idKey b = idKey a ++ rest) (t : Datetime) {x : List Char} (h : rest ++ x = t.stem) :
    False := by
  have hlast : (idKey b).getLast? = some '_' := by simp [idKey]
  rw [hb, List.getLast?_append_of_ne_nil _ hne] at hlast
  have hmem : '_' ∈ t.stem := h ▸ List.mem_append_left x (List.mem_of_getLast? hlast)
  exact (Datetime.stem_plain hmem).1 rfl

theorem not_idPrecedes_self : ¬ IdPrecedes a s a t := by
  rintro (⟨h, -, -⟩ | ⟨h, hb, -⟩ | ⟨h, ha, -⟩)
  · exact h List.prefix_rfl
  · exact h (List.append_right_eq_self.1 hb.symm)
  · exact h (List.append_right_eq_self.1 ha.symm)

theorem idPrecedes_of_longer {rest : List Char} (hne : rest ≠ [])
    (hb : idKey b = idKey a ++ rest) : IdPrecedes a s b t ↔ s.stem < rest := by
  constructor
  · rintro (⟨h, -, -⟩ | ⟨-, hb', h⟩ | ⟨-, ha, -⟩)
    · exact absurd ⟨rest, hb.symm⟩ h
    · rwa [List.append_cancel_left (hb.symm.trans hb')]
    · rw [hb, List.append_assoc] at ha
      have hnil := List.append_right_eq_self.1 ha.symm
      exact absurd (List.append_eq_nil_iff.1 hnil).1 hne
  · exact fun h => .longer hne hb h

theorem idPrecedes_of_shorter {rest : List Char} (hne : rest ≠ [])
    (ha : idKey a = idKey b ++ rest) : IdPrecedes a s b t ↔ rest < t.stem := by
  constructor
  · rintro (⟨-, h, -⟩ | ⟨-, hb, -⟩ | ⟨-, ha', h⟩)
    · exact absurd ⟨rest, ha.symm⟩ h
    · rw [ha, List.append_assoc] at hb
      have hnil := List.append_right_eq_self.1 hb.symm
      exact absurd (List.append_eq_nil_iff.1 hnil).1 hne
    · rwa [List.append_cancel_left (ha.symm.trans ha')]
  · exact fun h => .shorter hne ha h

theorem idPrecedes_of_diverge (hab : ¬ idKey a <+: idKey b) (hba : ¬ idKey b <+: idKey a) :
    IdPrecedes a s b t ↔ idKey a < idKey b := by
  constructor
  · rintro (⟨-, -, h⟩ | ⟨-, hb, -⟩ | ⟨-, ha, -⟩)
    · exact h
    · exact absurd ⟨_, hb.symm⟩ hab
    · exact absurd ⟨_, ha.symm⟩ hba
  · exact fun h => .diverge hab hba h

theorem timestampedName_lt_iff :
    timestampedName a s < timestampedName b t ↔ (a = b ∧ s < t) ∨ IdPrecedes a s b t := by
  rw [String.lt_iff_toList_lt, timestampedName_toList, timestampedName_toList]
  by_cases heq : a = b
  · subst heq
    rw [append_lt_append_left_iff, Datetime.stem_lt_iff]
    simp [not_idPrecedes_self]
  have hkey : idKey a ≠ idKey b := mt idKey_inj.1 heq
  simp only [heq, false_and, false_or]
  by_cases hab : idKey a <+: idKey b
  · -- `b` continues `a`
    obtain ⟨rest, hrest⟩ := hab
    have hne : rest ≠ [] := by
      rintro rfl
      exact hkey (by rw [← hrest, List.append_nil])
    have hp : ¬ rest <+: s.stem := fun ⟨x, hx⟩ => rest_not_prefix_stem hne hrest.symm s hx
    rw [idPrecedes_of_longer hne hrest.symm, ← hrest, List.append_assoc,
      append_lt_append_left_iff, lt_append_iff hp]
  by_cases hba : idKey b <+: idKey a
  · -- `a` continues `b`
    obtain ⟨rest, hrest⟩ := hba
    have hne : rest ≠ [] := by
      rintro rfl
      exact hkey (by rw [← hrest, List.append_nil])
    have hp : ¬ rest <+: t.stem := fun ⟨x, hx⟩ => rest_not_prefix_stem hne hrest.symm t hx
    rw [idPrecedes_of_shorter hne hrest.symm, ← hrest, List.append_assoc,
      append_lt_append_left_iff, append_lt_iff hp]
  · rw [idPrecedes_of_diverge hab hba, append_lt_append_iff_of_diverge hab hba]

/-- Different times give different names, whatever the ids. -/
theorem timestampedName_ne (h : s ≠ t) : timestampedName a s ≠ timestampedName b t := by
  intro heq
  have hlist : idKey a ++ s.stem = idKey b ++ t.stem := by
    rw [← timestampedName_toList, heq, timestampedName_toList]
  by_cases hab : idKey a <+: idKey b
  · obtain ⟨rest, hrest⟩ := hab
    rw [← hrest, List.append_assoc] at hlist
    have hstem := List.append_cancel_left hlist
    by_cases hne : rest = []
    · exact h (Datetime.stem_injective (by rw [hstem, hne, List.nil_append]))
    · exact rest_not_prefix_stem hne hrest.symm s hstem.symm
  · by_cases hba : idKey b <+: idKey a
    · obtain ⟨rest, hrest⟩ := hba
      have hne : rest ≠ [] := by
        rintro rfl
        exact hab ⟨[], by rw [← hrest, List.append_nil, List.append_nil]⟩
      rw [← hrest, List.append_assoc] at hlist
      exact rest_not_prefix_stem hne hrest.symm t (List.append_cancel_left hlist)
    · exact append_ne_append_of_diverge hab hba hlist

theorem timestampedName_inj : timestampedName a s = timestampedName b t ↔ a = b ∧ s = t := by
  constructor
  · intro h
    have htime : s = t := by
      by_contra hne
      exact timestampedName_ne hne h
    subst htime
    have hlist := congrArg String.toList h
    rw [timestampedName_toList, timestampedName_toList] at hlist
    exact ⟨idKey_inj.1 (List.append_cancel_right hlist), rfl⟩
  · rintro ⟨rfl, rfl⟩
    rfl

theorem timestampedName_le_iff : timestampedName a s ≤ timestampedName b t ↔
    (a = b ∧ ¬ t < s) ∨ IdPrecedes a s b t := by
  rw [le_iff_lt_or_eq, timestampedName_lt_iff, timestampedName_inj]
  constructor
  · rintro ((⟨hid, hlt⟩ | h) | ⟨hid, rfl⟩)
    · exact .inl ⟨hid, Datetime.not_lt_of_lt hlt⟩
    · exact .inr h
    · exact .inl ⟨hid, Datetime.not_lt_self _⟩
  · rintro (⟨hid, hle⟩ | h)
    · by_cases htime : s = t
      · exact .inr ⟨hid, htime⟩
      · exact .inl (.inl ⟨hid, (Datetime.lt_or_gt htime).resolve_right hle⟩)
    · exact .inl (.inr h)

theorem json_suffix_timestampedName (id : String) (t : Datetime) :
    ".json".toList <:+ (timestampedName id t).toList := by
  unfold timestampedName
  rw [String.toList_append]
  exact List.suffix_append _ _

/-- A name lies directly in its folder unless the id has a slash. -/
theorem slash_mem_timestampedName {id : String} :
    '/' ∈ (timestampedName id t).toList ↔ '/' ∈ id.toList := by
  rw [timestampedName_toList, idKey, List.mem_append, List.mem_append]
  constructor
  · rintro ((h | h) | h)
    · exact h
    · exact absurd (List.mem_singleton.1 h) (by decide)
    · exact absurd rfl (Datetime.stem_plain h).2
  · exact fun h => .inl (.inl h)

end Names

/-! ## Places of files -/

section Places

variable {cwd : Location} {folder id a b : String} {s t : Datetime}

/-- The last name of the place is formed from the last part of the id, the others are where the
parts before it lead. -/
theorem filePath_timestampedName : filePath cwd folder (timestampedName id t) =
    lead (resolve cwd folder) id ++ [timestampedName (leaf id) t] := by
  have hname : ∀ id, timestampedName id t = id ++ ("_" ++ t.safeTimestamp ++ ".json") := by
    intro id
    unfold timestampedName
    rw [String.append_assoc, String.append_assoc, String.append_assoc]
  have hplain : '/' ∉ ("_" ++ t.safeTimestamp ++ ".json").toList := by
    rw [String.append_assoc, String.toList_append, String.toList_append, Datetime.stem_eq]
    rintro hslash
    rcases List.mem_append.1 hslash with h | h
    · exact absurd h (by decide)
    · exact (Datetime.stem_plain h).2 rfl
  have hlong : 2 < ("_" ++ t.safeTimestamp ++ ".json").length := by
    have hjson : (".json" : String).length = 5 := by decide
    rw [String.length_append, hjson]
    omega
  unfold filePath
  rw [hname, hname, resolve_append hplain hlong]

/-- Different times lie in different places. -/
theorem filePath_ne {folder' : String} (h : s ≠ t) :
    filePath cwd folder (timestampedName a s) ≠ filePath cwd folder' (timestampedName b t) := by
  rw [filePath_timestampedName, filePath_timestampedName]
  intro heq
  exact timestampedName_ne h (List.singleton_inj.1 (List.append_inj' heq rfl).2)

theorem resolve_data (name : String) (h : '/' ∉ name.toList) (hlong : 2 < name.length) :
    resolve cwd ("data/" ++ name) = (cwd ++ ["data"]) ++ [name] := by
  have hdata : lead cwd "data/" = cwd ++ ["data"] ∧ leaf "data/" = "" := ⟨rfl, rfl⟩
  rw [resolve_append h hlong, hdata.1, hdata.2, String.empty_append]

/-- The folders that the savers write to. -/
def dataFolders : List String :=
  ["data/metrics", "data/logs", "data/observations", "data/predictions"]

theorem resolve_dataFolder (h : folder ∈ dataFolders) :
    ∃ x, folder = "data/" ++ x ∧ resolve cwd folder = (cwd ++ ["data"]) ++ [x] := by
  unfold dataFolders at h
  simp only [List.mem_cons, List.not_mem_nil, or_false] at h
  rcases h with rfl | rfl | rfl | rfl
  · exact ⟨"metrics", by decide, resolve_data "metrics" (by decide) (by decide)⟩
  · exact ⟨"logs", by decide, resolve_data "logs" (by decide) (by decide)⟩
  · exact ⟨"observations", by decide, resolve_data "observations" (by decide) (by decide)⟩
  · exact ⟨"predictions", by decide, resolve_data "predictions" (by decide) (by decide)⟩

theorem resolve_dataFolder_inj {folder' : String} (h : folder ∈ dataFolders)
    (h' : folder' ∈ dataFolders) (heq : resolve cwd folder = resolve cwd folder') :
    folder = folder' := by
  obtain ⟨x, rfl, hx⟩ := @resolve_dataFolder cwd _ h
  obtain ⟨y, rfl, hy⟩ := @resolve_dataFolder cwd _ h'
  rw [hx, hy] at heq
  cases List.append_cancel_left heq
  rfl

/-- An id without a slash leaves the file in its folder. -/
theorem filePath_of_plain (h : '/' ∉ id.toList) : filePath cwd folder (timestampedName id t) =
    resolve cwd folder ++ [timestampedName id t] := by
  rw [filePath_timestampedName, lead_of_plain h, leaf_of_plain h]

end Places

/-! ## Object keys -/

section Keys

variable {p q a b : String} {s t : Datetime}

/-- The key that the `upload_*` functions form. -/
def timestampedKey (pre instanceId : String) (timestamp : Datetime) : String :=
  pre ++ "/" ++ instanceId ++ "/" ++ timestamp.safeTimestamp ++ ".json"

theorem timestampedKey_toList : (timestampedKey p a t).toList =
    (p.toList ++ '/' :: a.toList) ++ '/' :: t.stem := by
  unfold timestampedKey
  rw [← Datetime.stem_eq]
  simp only [String.toList_append, List.append_assoc]
  rfl

/-- The keys of one instance are ordered like the times. -/
theorem timestampedKey_lt_iff : timestampedKey p a s < timestampedKey p a t ↔ s < t := by
  rw [String.lt_iff_toList_lt, timestampedKey_toList, timestampedKey_toList,
    append_lt_append_left_iff, ← Datetime.stem_lt_iff]
  exact append_lt_append_left_iff (a := ['/'])

theorem timestampedKey_injective : Function.Injective (timestampedKey p a) := by
  intro s t h
  have hlist := congrArg String.toList h
  rw [timestampedKey_toList, timestampedKey_toList] at hlist
  exact Datetime.stem_injective (List.cons.inj (List.append_cancel_left hlist)).2

/-- The time has no slash, so the last slash ends the id; without one in the id, the slash before it
ends the prefix. -/
theorem timestampedKey_inj (ha : '/' ∉ a.toList) (hb : '/' ∉ b.toList) :
    timestampedKey p a s = timestampedKey q b t ↔ p = q ∧ a = b ∧ s = t := by
  constructor
  · intro h
    have hlist := congrArg String.toList h
    rw [timestampedKey_toList, timestampedKey_toList] at hlist
    obtain ⟨hfolder, hstem⟩ := append_cons_inj_last (fun hs => (Datetime.stem_plain hs).2 rfl)
      (fun ht => (Datetime.stem_plain ht).2 rfl) hlist
    obtain ⟨hpre, hid⟩ := append_cons_inj_last ha hb hfolder
    exact ⟨String.toList_inj.1 hpre, String.toList_inj.1 hid, Datetime.stem_injective hstem⟩
  · rintro ⟨rfl, rfl, rfl⟩
    rfl

end Keys

end AiopsBackend
