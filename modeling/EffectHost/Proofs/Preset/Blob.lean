import EffectHost.Preset.BankReader
import EffectHost.Preset.BankWriter
import EffectHost.Proofs.Number.PlainText
import EffectHost.Proofs.Text.Parts
import EffectHost.Proofs.Text.Utf8

/-!
# The block of a preset

The block of a preset has a word for each slot, a zero byte and the data.  A slot can have one
value only, and there are no words for slots past the last, and so a state comes back with its
sliders in order, of which those are left that come last for their slot.
-/

namespace EffectHost

open Text Number

/-- A byte array is packed from the bytes that it lists. -/
theorem Bytes.pack_toList (bytes : ByteArray) : pack bytes.data.toList = bytes := rfl

/-! ## Kept sliders -/

/-- The sliders behind which no other of the same slot comes. -/
def lastEntries : List SliderValue → List SliderValue
  | [] => []
  | entry :: rest =>
    if rest.any (·.slot == entry.slot) then lastEntries rest else entry :: lastEntries rest

/-- The sliders that a bank keeps: those of its slots, the last for each, in order. -/
def keptSliders (sliders : List SliderValue) : List SliderValue :=
  (lastEntries (sliders.filter fun entry => entry.slot.toNat < sliderSlots)).insertionSort
    fun first second => first.slot ≤ second.slot

/-- The state that a bank keeps. -/
def EffectState.kept (state : EffectState) : EffectState :=
  { state with sliders := keptSliders state.sliders }

/-- The sliders stand in the order of their slots, one for each. -/
def Ordered (sliders : List SliderValue) : Prop :=
  sliders.Pairwise fun first second => first.slot < second.slot

/-- The last slider of a slot is found from behind. -/
theorem mem_lastEntries {sliders : List SliderValue} {entry : SliderValue} :
    entry ∈ lastEntries sliders ↔
      sliders.reverse.find? (fun other => other.slot == entry.slot) = some entry := by
  induction sliders with
  | nil => simp [lastEntries]
  | cons first rest ih =>
      rw [lastEntries, List.reverse_cons, List.find?_append]
      cases found : rest.reverse.find? (fun other => other.slot == entry.slot) with
      | some last =>
          have behind := List.mem_reverse.mp (List.mem_of_find?_eq_some found)
          have slot := List.find?_some found
          rw [found] at ih
          split
          · rw [ih, Option.some_or]
          · next alone =>
              rw [List.mem_cons, ih, Option.some_or, or_iff_right]
              rintro rfl
              exact alone (List.any_eq_true.mpr ⟨last, behind, slot⟩)
      | none =>
          rw [List.find?_eq_none] at found
          rw [List.find?_eq_none.mpr found] at ih
          rw [Option.none_or, List.find?_cons, List.find?_nil]
          split
          · next covered =>
              rcases List.any_eq_true.mp covered with ⟨last, behind, slot⟩
              have other : (first.slot == entry.slot) = false := by
                rw [beq_eq_false_iff_ne]
                intro same
                rw [same] at slot
                exact found last (List.mem_reverse.mpr behind) slot
              rw [ih, other]
          · rw [List.mem_cons, ih]
            cases same : first.slot == entry.slot with
            | true => simp [eq_comm]
            | false =>
                have different : entry ≠ first := by
                  rintro rfl
                  simp at same
                simp [different]

theorem mem_of_mem_lastEntries {sliders : List SliderValue} {entry : SliderValue}
    (last : entry ∈ lastEntries sliders) : entry ∈ sliders :=
  List.mem_reverse.mp (List.mem_of_find?_eq_some (mem_lastEntries.mp last))

theorem lastEntries_distinct (sliders : List SliderValue) :
    (lastEntries sliders).Pairwise fun first second => first.slot ≠ second.slot := by
  induction sliders with
  | nil => exact List.Pairwise.nil
  | cons first rest ih =>
      rw [lastEntries]
      split
      · exact ih
      · next alone =>
          refine List.pairwise_cons.mpr ⟨?_, ih⟩
          intro second last same
          exact alone (List.any_eq_true.mpr
            ⟨second, mem_of_mem_lastEntries last, beq_iff_eq.mpr same.symm⟩)

theorem ordered_keptSliders (sliders : List SliderValue) : Ordered (keptSliders sliders) := by
  let chosen := lastEntries (sliders.filter fun entry => entry.slot.toNat < sliderSlots)
  have sorted : (keptSliders sliders).Pairwise fun first second => first.slot ≤ second.slot := by
    have total : Std.Total fun first second : SliderValue => first.slot ≤ second.slot :=
      ⟨fun _ _ => UInt32.le_total _ _⟩
    have trans : IsTrans SliderValue fun first second => first.slot ≤ second.slot :=
      ⟨fun _ _ _ => UInt32.le_trans⟩
    exact List.pairwise_insertionSort _ chosen
  have distinct : (keptSliders sliders).Pairwise fun first second => first.slot ≠ second.slot :=
    (List.perm_insertionSort _ chosen).symm.pairwise (lastEntries_distinct _) Ne.symm
  exact sorted.imp₂ (fun _ _ le ne => UInt32.lt_of_le_of_ne le ne) distinct

/-- A bank keeps the value of each slot that counts. -/
theorem mem_keptSliders {sliders : List SliderValue} {entry : SliderValue} :
    entry ∈ keptSliders sliders ↔ entry.slot.toNat < sliderSlots ∧
      Preset.valueAt? { sliders } entry.slot.toNat = some entry.value := by
  rw [keptSliders, List.mem_insertionSort, mem_lastEntries, ← List.filter_reverse,
    List.find?_filter, Preset.valueAt?, Option.map_eq_some_iff]
  by_cases inside : entry.slot.toNat < sliderSlots
  · have same : (fun other : SliderValue =>
        decide (decide (other.slot.toNat < sliderSlots) = true ∧
          (other.slot == entry.slot) = true)) =
        fun other => other.slot.toNat == entry.slot.toNat := by
      funext other
      rw [Bool.eq_iff_iff, decide_eq_true_eq, decide_eq_true_eq, beq_iff_eq, beq_iff_eq]
      constructor
      · rintro ⟨-, slot⟩
        rw [slot]
      · intro slot
        exact ⟨slot ▸ inside, UInt32.toNat_inj.mp slot⟩
    rw [same]
    constructor
    · intro found
      exact ⟨inside, entry, found, rfl⟩
    · rintro ⟨-, other, found, value⟩
      have hit := List.find?_some found
      have slot := UInt32.toNat_inj.mp (beq_iff_eq.mp hit)
      have whole : other = entry := by
        rcases other with ⟨_, _⟩
        rcases entry with ⟨_, _⟩
        dsimp only at slot value
        rw [slot, value]
      rw [found, whole]
  · constructor
    · intro found
      have chosen := List.find?_some found
      simp [inside] at chosen
    · exact fun kept => absurd kept.1 inside

/-- Sliders in order are determined by which they are. -/
theorem Ordered.eq_of_mem_iff {first second : List SliderValue} (one : Ordered first)
    (two : Ordered second) (same : ∀ entry, entry ∈ first ↔ entry ∈ second) : first = second := by
  have distinct : ∀ {sliders : List SliderValue}, Ordered sliders → sliders.Nodup := by
    intro sliders ordered
    refine ordered.imp fun less same => ?_
    rw [same] at less
    exact UInt32.lt_irrefl _ less
  apply List.Perm.eq_of_pairwise _ one two
  · exact (List.perm_ext_iff_of_nodup (distinct one) (distinct two)).mpr same
  · intro first second _ _ less greater
    exact absurd (UInt32.lt_trans less greater) (UInt32.lt_irrefl _)

/-- Sliders in order are kept as they are. -/
theorem keptSliders_of_ordered {sliders : List SliderValue} (ordered : Ordered sliders)
    (inside : ∀ entry ∈ sliders, entry.slot.toNat < sliderSlots) :
    keptSliders sliders = sliders := by
  have all : sliders.filter (fun entry => entry.slot.toNat < sliderSlots) = sliders :=
    List.filter_eq_self.mpr fun entry member => decide_eq_true (inside entry member)
  have last : lastEntries sliders = sliders := by
    clear inside all
    induction sliders with
    | nil => rfl
    | cons first rest ih =>
        rcases List.pairwise_cons.mp ordered with ⟨before, others⟩
        rw [lastEntries, if_neg, ih others]
        intro covered
        rcases List.any_eq_true.mp covered with ⟨second, behind, same⟩
        have less := before second behind
        rw [beq_iff_eq.mp same] at less
        exact UInt32.lt_irrefl _ less
  rw [keptSliders, all, last]
  exact List.Pairwise.insertionSort_eq (ordered.imp fun less => UInt32.le_of_lt less)

/-! ## Words -/

/-- Words with blanks between them are these words. -/
theorem words_intercalate {list : List (List Char)} (some : list ≠ [])
    (nonempty : ∀ word ∈ list, word ≠ []) (solid : ∀ word ∈ list, ∀ c ∈ word, isBlank c = false) :
    words (List.intercalate [' '] list) = list := by
  rcases List.exists_cons_of_ne_nil some with ⟨first, rest, rfl⟩
  have split : (List.intercalate [' '] (first :: rest)).splitOnP isBlank = first :: rest := by
    clear nonempty some
    induction rest generalizing first with
    | nil =>
        rw [List.intercalate_singleton]
        exact List.splitOnP_eq_singleton (solid first (List.mem_cons_self ..))
    | cons second rest ih =>
        rw [List.forall_mem_cons] at solid
        rw [List.intercalate_cons_cons, List.append_assoc, List.singleton_append,
          List.splitOnP_append_cons_of_forall_mem solid.1 ' ' (by decide), ih second solid.2]
  rw [words, split]
  apply List.filter_eq_self.mpr
  intro word member
  simp [nonempty word member]

/-! ## Blobs -/

namespace Bank

/-- What a blob needs to know of the characters of its words. -/
structure BlobChar (c : Char) : Prop where
  unblank : isBlank c = false
  utf8 : ∃ byte, byte ≠ 0 ∧ String.utf8EncodeChar c = [byte]

theorem blobChar_of_mem_figures {c : Char} (member : c ∈ figures) : BlobChar c := by
  have each : ∀ c ∈ figures, isBlank c = false ∧ UInt8.ofNat c.toNat ≠ 0 ∧
      String.utf8EncodeChar c = [UInt8.ofNat c.toNat] :=
    List.all_iff_forall_prop.mp (by decide)
  rcases each c member with ⟨unblank, nonzero, bytes⟩
  exact ⟨unblank, _, nonzero, bytes⟩

/-- Slots are small. -/
theorem toNat_ofNat_slot {slot : Nat} (inside : slot < sliderSlots) :
    (UInt32.ofNat slot).toNat = slot :=
  UInt32.toNat_ofNat_of_lt' (Nat.lt_trans inside (by decide))

/-- A word that spells a slider stands at its slot, and is the text of its value. -/
theorem mem_slidersOfWords {slots : List (List Char)} {entry : SliderValue} :
    entry ∈ slidersOfWords slots ↔ entry.slot.toNat < sliderSlots ∧
      ∃ word, slots[entry.slot.toNat]? = some word ∧ word ≠ Preset.absentWord.toList ∧
        number? word = some entry.value := by
  rw [slidersOfWords, List.mem_filterMap]
  constructor
  · rintro ⟨⟨word, slot⟩, placed, spelled⟩
    rw [List.mem_zipIdx_iff_getElem?, List.getElem?_take] at placed
    dsimp only at placed spelled
    split at placed
    · next inside =>
        split at spelled
        · cases spelled
        · next present =>
            rcases Option.map_eq_some_iff.mp spelled with ⟨value, read, rfl⟩
            have position : (UInt32.ofNat slot).toNat = slot := toNat_ofNat_slot inside
            dsimp only
            rw [position]
            exact ⟨inside, word, placed, by simpa using present, read⟩
    · cases placed
  · rintro ⟨inside, word, placed, present, spelled⟩
    refine ⟨⟨word, entry.slot.toNat⟩, ?_, ?_⟩
    · rw [List.mem_zipIdx_iff_getElem?, List.getElem?_take, if_pos inside, placed]
    · dsimp only
      rw [if_neg (by simpa using present), spelled, Option.map_some, UInt32.ofNat_toNat]

/-- The sliders of a text stand in order. -/
theorem ordered_slidersOfWords (slots : List (List Char)) : Ordered (slidersOfWords slots) := by
  have placed :
      (slots.take sliderSlots).zipIdx.Pairwise fun first second => first.2 < second.2 := by
    have positions := List.pairwise_lt_range' (s := 0) (n := (slots.take sliderSlots).length)
    rw [← List.zipIdx_map_snd 0 (slots.take sliderSlots), List.pairwise_map] at positions
    exact positions
  rw [Ordered, slidersOfWords, List.pairwise_filterMap]
  apply placed.imp_of_mem
  rintro ⟨word, slot⟩ ⟨word', slot'⟩ here there less entry spelled entry' spelled'
  have inside : slot < sliderSlots := by
    have short := List.snd_lt_of_mem_zipIdx here
    simp at short
    omega
  have inside' : slot' < sliderSlots := by
    have short := List.snd_lt_of_mem_zipIdx there
    simp at short
    omega
  dsimp only at spelled spelled' less
  split at spelled
  · cases spelled
  · split at spelled'
    · cases spelled'
    · rcases Option.map_eq_some_iff.mp spelled with ⟨value, -, rfl⟩
      rcases Option.map_eq_some_iff.mp spelled' with ⟨value', -, rfl⟩
      rw [UInt32.lt_iff_toNat_lt, toNat_ofNat_slot inside, toNat_ofNat_slot inside']
      exact less

/-- The word of a slot. -/
def slotWord (state : EffectState) (slot : Nat) : List Char :=
  match Preset.valueAt? state slot with
  | some value => (plainText value).toList
  | none => Preset.absentWord.toList

theorem map_slotWords (state : EffectState) :
    (Preset.slotWords state).map String.toList = (List.range sliderSlots).map (slotWord state) := by
  rw [Preset.slotWords, List.map_map]
  apply List.map_congr_left
  intro slot _
  rw [Function.comp_apply, slotWord]
  cases Preset.valueAt? state slot <;> rfl

variable {state : EffectState}

theorem mem_figures_of_mem_slotWord {slot : Nat} {c : Char} (member : c ∈ slotWord state slot) :
    c ∈ figures := by
  rw [slotWord] at member
  split at member
  · exact mem_figures_of_mem_plainText member
  · have absent : ∀ c ∈ Preset.absentWord.toList, c ∈ figures :=
      List.all_iff_forall_prop.mp (by decide)
    exact absent c member

/-- The text of a blob, character by character. -/
def slotText (state : EffectState) : List Char :=
  List.intercalate [' '] ((List.range sliderSlots).map (slotWord state))

theorem toList_intercalate_slotWords (state : EffectState) :
    (String.intercalate " " (Preset.slotWords state)).toList = slotText state := by
  rw [String.toList_intercalate, map_slotWords]
  rfl

/-- The bytes of the words are not zero. -/
theorem ne_zero_of_mem_slotText {byte : UInt8}
    (member : byte ∈ (slotText state).flatMap String.utf8EncodeChar) : byte ≠ 0 := by
  have each : ∀ c ∈ slotText state, ∃ byte, byte ≠ 0 ∧ String.utf8EncodeChar c = [byte] := by
    apply forall_mem_intercalate
    · intro c blank
      rw [List.mem_singleton.mp blank]
      exact ⟨32, by decide, by decide⟩
    · intro word listed c member
      rcases List.mem_map.mp listed with ⟨slot, -, rfl⟩
      exact (blobChar_of_mem_figures (mem_figures_of_mem_slotWord member)).utf8
  rcases List.mem_flatMap.mp member with ⟨c, inside, written⟩
  rcases each c inside with ⟨only, nonzero, bytes⟩
  rw [bytes, List.mem_singleton] at written
  rwa [written]

/-- The value of a slot is read from its word. -/
theorem number?_slotWord (numbers : ∀ entry ∈ state.sliders, reading entry.value ≠ .nan)
    {slot : Nat} {value : Float} (given : Preset.valueAt? state slot = some value) :
    number? (slotWord state slot) = some value := by
  rw [Preset.valueAt?, Option.map_eq_some_iff] at given
  rcases given with ⟨entry, found, same⟩
  have number := numbers entry (List.mem_reverse.mp (List.mem_of_find?_eq_some found))
  have known : Preset.valueAt? state slot = some value := by
    rw [Preset.valueAt?, found, Option.map_some, same]
  rw [slotWord, known]
  exact number?_plainText (same ▸ number)

theorem slotWord_ne_nil (numbers : ∀ entry ∈ state.sliders, reading entry.value ≠ .nan)
    (slot : Nat) : slotWord state slot ≠ [] := by
  intro empty
  cases given : Preset.valueAt? state slot with
  | none =>
      rw [slotWord, given] at empty
      cases empty
  | some value =>
      have read := number?_slotWord numbers given
      rw [empty] at read
      have none : number? [] = none := by decide
      rw [none] at read
      cases read

/-- The words of a blob are those of the slots. -/
theorem words_slotText (numbers : ∀ entry ∈ state.sliders, reading entry.value ≠ .nan) :
    words (slotText state) = (List.range sliderSlots).map (slotWord state) := by
  apply words_intercalate
  · simp [sliderSlots]
  · intro word listed
    rcases List.mem_map.mp listed with ⟨slot, -, rfl⟩
    exact slotWord_ne_nil numbers slot
  · intro word listed c member
    rcases List.mem_map.mp listed with ⟨slot, -, rfl⟩
    exact (blobChar_of_mem_figures (mem_figures_of_mem_slotWord member)).unblank

/-- The words of the slots spell the sliders that are kept. -/
theorem slidersOfWords_slotWord (numbers : ∀ entry ∈ state.sliders, reading entry.value ≠ .nan) :
    slidersOfWords ((List.range sliderSlots).map (slotWord state)) = keptSliders state.sliders := by
  apply (ordered_slidersOfWords _).eq_of_mem_iff (ordered_keptSliders _)
  intro entry
  rw [mem_slidersOfWords, mem_keptSliders]
  refine and_congr_right fun inside => ?_
  rw [List.getElem?_map, List.getElem?_range inside, Option.map_some]
  constructor
  · rintro ⟨word, placed, present, spelled⟩
    cases placed
    cases given : Preset.valueAt? state entry.slot.toNat with
    | none =>
        rw [slotWord, given] at present
        exact absurd rfl present
    | some value =>
        rw [number?_slotWord numbers given] at spelled
        exact given.trans spelled
  · intro given
    have read := number?_slotWord numbers given
    refine ⟨_, rfl, ?_, read⟩
    intro absent
    have none : number? Preset.absentWord.toList = none := by decide
    rw [absent, none] at read
    cases read

/-- A state comes back from its blob as it is kept. -/
theorem stateOfBlob_blob (numbers : ∀ entry ∈ state.sliders, reading entry.value ≠ .nan) :
    stateOfBlob (blob state) = state.kept := by
  have text : (Utf8.encode (String.intercalate " " (Preset.slotWords state))).data.toList =
      (slotText state).flatMap String.utf8EncodeChar := by
    rw [Utf8.toList_encode, toList_intercalate_slotWords]
  have read : Utf8.decode (Bytes.pack ((slotText state).flatMap String.utf8EncodeChar)) =
      String.intercalate " " (Preset.slotWords state) := by
    rw [← text, Bytes.pack_toList, Utf8.decode_encode]
  have nonzero : ∀ byte ∈ (slotText state).flatMap String.utf8EncodeChar, (byte != 0) = true :=
    fun byte member => bne_iff_ne.mpr (ne_zero_of_mem_slotText member)
  rw [stateOfBlob, blob, text, List.takeWhile_append_of_pos nonzero,
    List.dropWhile_append_of_pos nonzero, List.takeWhile_cons_of_neg (by decide),
    List.dropWhile_cons_of_neg (by decide), List.append_nil, read, toList_intercalate_slotWords,
    words_slotText numbers, slidersOfWords_slotWord numbers]
  rfl

end Bank
end EffectHost
