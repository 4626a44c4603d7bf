import Qbox.StringSearch

/-! The parameters that a `PassRPC` ships to its remote: which presets `get_cci_db` selects by their names, and under
which names `set_cci_db` sets them on the other side. -/
namespace Qbox.PassRpc
open StringSearch List

structure Preset where
  name : List Char
  value : List Char
  deriving DecidableEq, Repr

structure Presets where
  values : List Preset
  nodup : (values.map Preset.name).Nodup

def remotePass : List Char := "\"RemotePass\"".toList

def matchWords : List (List Char) :=
  ["args".toList,"moduletype".toList,"initiator_socket".toList,"target_socket".toList,
    "initiator_signal_socket".toList,"target_signal_socket".toList]

def searchStr (parent entry value : List Char) : List Char :=
  if entry = "moduletype".toList ∧ value = remotePass then entry else parent ++ '.' :: entry

def isSelfParam (parent parname value : List Char) : Bool :=
  matchWords.any fun entry => (find (searchStr parent entry value) parname).isSome

/-- The loop of `get_cci_db`: the pairs returned and the names marked, unless `substr` throws. -/
def getCciDb (parent : List Char) : List Preset → Option (List (List Char × List Char) × List (List Char))
  | [] => some ([],[])
  | p :: ps =>
    if find parent p.name = some 0 then
      if isSelfParam parent p.name p.value then getCciDb parent ps
      else do
        let k ← substr p.name (parent.length+1)
        let r ← getCciDb parent ps
        some (('$' :: k,p.value) :: r.1,p.name :: r.2)
    else if find ['.'] p.name = none then do
      let r ← getCciDb parent ps
      some ((p.name,p.value) :: r.1,r.2)
    else getCciDb parent ps

/-- The name under which `set_cci_db` of the module `modname` sets a pair. -/
def parname (modname : List Char) : List Char → List Char
  | '$' :: k => beforeLast '.' modname ++ '.' :: k
  | '@' :: k => modname ++ '.' :: k
  | k => k

def setCciDb (modname : List Char) (db : List (List Char × List Char)) : List (List Char × List Char) :=
  db.map fun p => (parname modname p.1,p.2)

/-! What is to be shipped. -/

/-- The name is that of something below the module: its own name, a dot and a suffix. -/
def Below (parent name : List Char) : Prop := parent++['.'] <+: name

instance (parent name : List Char) : Decidable (Below parent name) := inferInstanceAs (Decidable (_ <+: _))

def suffix (parent name : List Char) : List Char := name.drop (parent.length+1)

def socketWords : List (List Char) :=
  ["initiator_socket".toList,"target_socket".toList,"initiator_signal_socket".toList,"target_signal_socket".toList]

def isSocketName (c : List Char) : Bool :=
  socketWords.any fun w => c == w || (w++['_']).isPrefixOf c && (c.drop (w.length+1)).all Char.isDigit
    && decide (w.length+1 < c.length)

/-- The first part of a suffix names the module's own arguments, its type or one of its sockets. -/
def isOwnName (c : List Char) : Bool := c == "args".toList || c == "moduletype".toList || isSocketName c

def Own (parent name : List Char) : Prop :=
  Below parent name ∧ isOwnName ((suffix parent name).takeWhile (· ≠ '.')) = true

instance (parent name : List Char) : Decidable (Own parent name) := inferInstanceAs (Decidable (_ ∧ _))

def Remote (p : Preset) : Prop := p.value = remotePass ∧ "moduletype".toList <:+: p.name

instance (p : Preset) : Decidable (Remote p) := inferInstanceAs (Decidable (_ ∧ _))

def Wanted (parent : List Char) (p : Preset) : Prop := Below parent p.name ∧ ¬Own parent p.name ∧ ¬Remote p

instance (parent : List Char) (p : Preset) : Decidable (Wanted parent p) := inferInstanceAs (Decidable (_ ∧ _ ∧ _))

def isRelative (e : List Char × List Char) : Bool := e.1.head? == some '$'

/-- The `$` entries and the marked names of `get_cci_db` are those of the remote's presets. -/
def ShipsOwn (parent : List Char) (ps : Presets) : Prop :=
  ∃ db, getCciDb parent ps.values = some (db,(ps.values.filter (Wanted parent)).map Preset.name) ∧
    db.filter isRelative = (ps.values.filter (Wanted parent)).map fun p => ('$' :: suffix parent p.name,p.value)

/-- A preset's name does not merely begin with the module's characters, unless passed over, and is not taken for one
of the module's own; a global one does not begin with a `$`. -/
def Unambiguous (parent : List Char) (p : Preset) : Prop :=
  (parent <+: p.name → isSelfParam parent p.name p.value = false → Below parent p.name) ∧
    (Below parent p.name → isSelfParam parent p.name p.value = true → Own parent p.name ∨ Remote p) ∧
    (¬parent <+: p.name → '.' ∉ p.name → p.name.head? ≠ some '$')

instance (parent : List Char) (p : Preset) : Decidable (Unambiguous parent p) :=
  inferInstanceAs (Decidable (_ ∧ _ ∧ _))

variable {parent : List Char} {p : Preset}

lemma isSelfParam_iff : isSelfParam parent p.name p.value = true ↔
    ∃ w ∈ matchWords, searchStr parent w p.value <:+: p.name := by
  simp [isSelfParam,find_isSome]

lemma Below.eq_append {name : List Char} (h : Below parent name) : name = parent ++ '.' :: suffix parent name := by
  obtain ⟨k,rfl⟩ := h
  simp [suffix]

lemma exists_word_of_isOwnName {c : List Char} (h : isOwnName c = true) : ∃ w ∈ matchWords, w <+: c := by
  simp only [isOwnName,Bool.or_eq_true,beq_iff_eq] at h
  rcases h with (rfl | rfl) | hs
  · exact ⟨_,by decide,prefix_rfl⟩
  · exact ⟨_,by decide,prefix_rfl⟩
  · rw [isSocketName,List.any_eq_true] at hs
    obtain ⟨w,hw,hc⟩ := hs
    have hwo : ∀ w ∈ socketWords, w ∈ matchWords := by decide
    refine ⟨w,hwo w hw,?_⟩
    simp only [Bool.or_eq_true,Bool.and_eq_true,beq_iff_eq, isPrefixOf_iff_prefix] at hc
    rcases hc with rfl | ⟨⟨hc,-⟩,-⟩
    · exact prefix_rfl
    · exact (prefix_append w ['_']).trans hc

lemma Own.isSelfParam (h : Own parent p.name) : isSelfParam parent p.name p.value = true := by
  obtain ⟨hbe,hn⟩ := h
  obtain ⟨w,hw,hb⟩ := exists_word_of_isOwnName hn
  have hl : parent ++ '.' :: w <+: p.name := by
    rw [hbe.eq_append,prefix_append_right_inj,cons_prefix_cons]
    exact ⟨rfl,hb.trans ( takeWhile_prefix _)⟩
  refine isSelfParam_iff.mpr ⟨w,hw,?_⟩
  rw [searchStr]
  split
  · exact (suffix_append (parent++['.']) w).isInfix.trans (by simpa using hl.isInfix)
  · exact hl.isInfix

lemma Remote.isSelfParam (h : Remote p) (parent : List Char) : isSelfParam parent p.name p.value = true := by
  refine isSelfParam_iff.mpr ⟨"moduletype".toList,by decide,?_⟩
  rw [searchStr,if_pos ⟨rfl,h.1⟩]
  exact h.2

def Shipped (parent : List Char) (p : Preset) : Prop := parent <+: p.name ∧ isSelfParam parent p.name p.value = false

instance (parent : List Char) (p : Preset) : Decidable (Shipped parent p) := inferInstanceAs (Decidable (_ ∧ _))

def entries (parent : List Char) (p : Preset) : List (List Char × List Char) :=
  if Shipped parent p then [('$' :: suffix parent p.name,p.value)]
  else if ¬parent <+: p.name ∧ '.' ∉ p.name then [(p.name,p.value)] else []

/-- One turn of the loop; it throws at a shipped preset that has the name of the module itself. -/
lemma getCciDb_cons (parent : List Char) (p : Preset) (ps : List Preset) : getCciDb parent (p :: ps) =
    if Shipped parent p ∧ p.name.length ≤ parent.length then none else (getCciDb parent ps).map fun r =>
      (entries parent p++r.1,if Shipped parent p then p.name :: r.2 else r.2) := by
  simp only [getCciDb,find_eq_some_zero,find_eq_none,singleton_infix_iff]
  by_cases hb : parent <+: p.name
  · cases hse : isSelfParam parent p.name p.value with
    | true =>
      have hn : ¬Shipped parent p := by simp [Shipped,hse]
      simp [hb,hn,entries]
    | false =>
      have hs : Shipped parent p := ⟨hb,hse⟩
      by_cases hl : p.name.length ≤ parent.length
      · have hsu : substr p.name (parent.length+1) = none := if_neg (by omega)
        simp [hb,hs,hl,hsu]
      · have hsu : substr p.name (parent.length+1) = some (suffix parent p.name) := if_pos (by omega)
        simp only [hb,hs,hl,hsu,entries,if_true,and_false,if_false,Bool.false_eq_true]
        cases getCciDb parent ps <;> rfl
  · have hn : ¬Shipped parent p := fun h => hb h.1
    by_cases hd : '.' ∈ p.name
    · simp [hb,hn,hd,entries]
    · simp only [hb,hn,hd,entries,not_false_eq_true,and_self,if_true,if_false,false_and]
      cases getCciDb parent ps <;> rfl

lemma getCciDb_of_long {ps : List Preset} (h : ∀ p ∈ ps, Shipped parent p → parent.length < p.name.length) :
    getCciDb parent ps = some (ps.flatMap (entries parent),(ps.filter (Shipped parent)).map Preset.name) := by
  induction ps with
  | nil => rfl
  | cons p ps ih =>
    have hl : ¬(Shipped parent p ∧ p.name.length ≤ parent.length) := fun hs =>
      absurd (h p (by simp) hs.1) (by omega)
    rw [getCciDb_cons,if_neg hl,ih fun q hq => h q (by simp [hq])]
    by_cases hsh : Shipped parent p <;> simp [hsh]

lemma long_of_getCciDb {ps : List Preset} (h : getCciDb parent ps ≠ none) :
    ∀ p ∈ ps, Shipped parent p → parent.length < p.name.length := by
  induction ps with
  | nil => simp
  | cons q ps ih =>
    rw [getCciDb_cons] at h
    split at h
    · exact absurd rfl h
    · rename_i hl
      have hr := ih fun hn => h (by rw [hn]; rfl)
      rw [forall_mem_cons]
      exact ⟨fun hs => by by_contra hle; exact hl ⟨hs,by omega⟩,hr⟩

lemma Unambiguous.shipped_iff (h : Unambiguous parent p) : Shipped parent p ↔ Wanted parent p := by
  constructor
  · intro hs
    refine ⟨h.1 hs.1 hs.2,fun ho => ?_,fun hr => ?_⟩
    · exact absurd ho.isSelfParam (by simp [hs.2])
    · exact absurd (hr.isSelfParam parent) (by simp [hs.2])
  · rintro ⟨hb,ho,hr⟩
    refine ⟨(prefix_append _ _).trans hb,?_⟩
    by_contra hse
    rcases h.2.1 hb (by simpa using hse) with hba | hba
    · exact ho hba
    · exact hr hba

lemma Below.length_lt {name : List Char} (h : Below parent name) : parent.length < name.length := by
  have hl := IsPrefix.length_le h
  simp at hl
  omega

lemma Unambiguous.entries_eq (h : Unambiguous parent p) : (entries parent p).filter isRelative =
    if Wanted parent p then [('$' :: suffix parent p.name,p.value)] else [] := by
  rw [entries]
  by_cases hs : Shipped parent p
  · rw [if_pos hs,if_pos (h.shipped_iff.mp hs)]
    rfl
  · rw [if_neg hs,if_neg fun hw => hs (h.shipped_iff.mpr hw)]
    split
    · rename_i hg
      have hh := h.2.2 hg.1 hg.2
      simpa [isRelative] using hh
    · rfl

lemma flatMap_wanted (f : Preset → List Char × List Char) (ps : List Preset) :
    (ps.flatMap fun p => if Wanted parent p then [f p] else []) = (ps.filter (Wanted parent)).map f := by
  induction ps with
  | nil => rfl
  | cons p ps ih => by_cases hw : Wanted parent p <;> simp [hw,ih]

/-- Equal lists of parts, each at least as long as that of the other, have the same parts. -/
lemma flatMap_inj_of_length_le {α β : Type} {f g : α → List β} {l : List α}
    (hle : ∀ a ∈ l, (g a).length ≤ (f a).length) (heq : l.flatMap f = l.flatMap g) : ∀ a ∈ l, f a = g a := by
  induction l with
  | nil => simp
  | cons a l ih =>
    rw [forall_mem_cons] at hle ⊢
    have hr : (l.flatMap g).length ≤ (l.flatMap f).length := by
      simp only [length_flatMap]
      exact sum_le_sum hle.2
    have hl := congrArg List.length heq
    simp only [flatMap_cons,length_append] at hl
    obtain ⟨hh,ht⟩ := append_inj heq (by omega)
    exact ⟨hh,ih hle.2 ht⟩

lemma shipped_iff_of_map_eq {ps : Presets} {P Q : Preset → Prop} [DecidablePred P] [DecidablePred Q]
    (h : (ps.values.filter P).map Preset.name = (ps.values.filter Q).map Preset.name) (hp : p ∈ ps.values) : P p ↔ Q p := by
  have hi : ∀ q ∈ ps.values, q.name = p.name → q = p := fun q hq hn =>
    inj_on_of_nodup_map ps.nodup hq hp hn
  have hm : ∀ (R : Preset → Prop) [DecidablePred R], R p ↔ p.name ∈ (ps.values.filter R).map Preset.name := by
    intro R _
    simp only [List.mem_map,mem_filter,decide_eq_true_eq]
    constructor
    · intro hr
      exact ⟨p,⟨hp,hr⟩,rfl⟩
    · rintro ⟨q,⟨hq,hr⟩,hn⟩
      exact hi q hq hn ▸ hr
  rw [hm P,h,← hm Q]

lemma ShipsOwn.unambiguous {ps : Presets} (h : ShipsOwn parent ps) : ∀ p ∈ ps.values, Unambiguous parent p := by
  obtain ⟨db,hdb,he⟩ := h
  have hl := long_of_getCciDb (by rw [hdb]; simp)
  rw [getCciDb_of_long hl,Option.some_inj,Prod.mk.injEq] at hdb
  obtain ⟨rfl,hu⟩ := hdb
  have hi : ∀ p ∈ ps.values, (Shipped parent p ↔ Wanted parent p) := fun p hp => shipped_iff_of_map_eq hu hp
  rw [filter_flatMap,← flatMap_wanted] at he
  -- No preset adds fewer `$` entries than it should, so none adds more.
  have hle : ∀ p ∈ ps.values, (if Wanted parent p then [('$' :: suffix parent p.name,p.value)] else []).length ≤
        ((entries parent p).filter isRelative).length := by
    intro p hp
    split
    · rename_i hw
      rw [entries,if_pos ((hi p hp).mpr hw)]
      exact le_rfl
    · exact Nat.zero_le _
  have hpr := flatMap_inj_of_length_le hle he
  refine fun p hp => ⟨fun hb hse => ?_,fun hbe hse => ?_,fun hb hd hh => ?_⟩
  · exact ((hi p hp).mp ⟨hb,hse⟩).1
  · by_contra hn
    rw [not_or] at hn
    have hs := (hi p hp).mpr ⟨hbe,hn⟩
    simp [hs.2] at hse
  · have hsh : ¬Shipped parent p := fun hs => hb hs.1
    have hpa := hpr p hp
    rw [if_neg fun hw => hsh ((hi p hp).mpr hw),entries,if_neg hsh,if_pos ⟨hb,hd⟩] at hpa
    simp [isRelative,hh] at hpa

lemma ShipsOwn.of_unambiguous {ps : Presets} (h : ∀ p ∈ ps.values, Unambiguous parent p) : ShipsOwn parent ps := by
  have hi := fun p hp => (h p hp).shipped_iff
  refine ⟨ps.values.flatMap (entries parent),
    (getCciDb_of_long fun p hp hs => ((hi p hp).mp hs).1.length_lt).trans ?_,?_⟩
  · rw [filter_congr fun p hp => decide_eq_decide.mpr (hi p hp)]
  · rw [filter_flatMap,← flatMap_wanted]
    exact flatMap_congr fun p hp => (h p hp).entries_eq

/-- Exactly the remote's presets are shipped and marked when and only when no name is ambiguous. -/
theorem shipsOwn_iff (parent : List Char) (ps : Presets) :
    ShipsOwn parent ps ↔ ∀ p ∈ ps.values, Unambiguous parent p :=
  ⟨ShipsOwn.unambiguous,ShipsOwn.of_unambiguous⟩

/-- A sibling's preset is shipped under half a name, one with the remote's own name throws, and one of a component
below is dropped. -/
theorem ambiguous_names : getCciDb "top.remote".toList [⟨"top.remote2.size".toList,['8']⟩] =
        some ([("$.size".toList,['8'])],["top.remote2.size".toList]) ∧
      getCciDb "top.remote".toList [⟨"top.remote".toList,['8']⟩] = none ∧
      getCciDb "top.remote".toList [⟨"top.remote.argsort.size".toList,['8']⟩] = some ([],[]) ∧
      ¬ShipsOwn "top.remote".toList ⟨[⟨"top.remote2.size".toList,['8']⟩],nodup_singleton _⟩ ∧
      ¬ShipsOwn "top.remote".toList ⟨[⟨"top.remote.argsort.size".toList,['8']⟩],nodup_singleton _⟩ := by
  refine ⟨by decide +kernel,by decide +kernel,by decide +kernel,fun h => ?_,fun h => ?_⟩
  · exact absurd h.unambiguous (by decide +kernel)
  · exact absurd h.unambiguous (by decide +kernel)

end Qbox.PassRpc
