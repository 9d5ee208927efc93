import WorkflowEngine.JsonText.Value

/-! What `json.dumps` writes, `json.loads` reads. So the canonical text of a value determines it,
up to the order of the items of its dicts. -/

namespace JsonText

theorem text_scanDigits (s : List Char) : (scanDigits s).1 ++ (scanDigits s).2 = s :=
  List.takeWhile_append_dropWhile

theorem text_scanWhole {s n t : List Char} (h : scanWhole s = some (n, t)) : n ++ t = s := by
  cases s with
  | nil => cases h
  | cons c s =>
    simp only [scanWhole] at h
    split_ifs at h with h0 hd <;> cases h
    · rw [h0]
      rfl
    · rw [List.cons_append, text_scanDigits]

theorem text_scanFraction (s : List Char) : (scanFraction s).1 ++ (scanFraction s).2 = s := by
  unfold scanFraction
  split
  · split_ifs
    · rfl
    · exact congrArg _ (text_scanDigits _)
  · rfl

theorem text_scanSign (s : List Char) : (scanSign s).1 ++ (scanSign s).2 = s := by
  unfold scanSign
  split
  · split_ifs <;> rfl
  · rfl

theorem text_scanExponent (s : List Char) : (scanExponent s).1 ++ (scanExponent s).2 = s := by
  unfold scanExponent
  split
  · split_ifs
    · rw [List.cons_append, List.append_assoc, text_scanDigits, text_scanSign]
    · rfl
  · rfl

theorem text_scanMinus (s : List Char) : (scanMinus s).1 ++ (scanMinus s).2 = s := by
  unfold scanMinus
  split <;> rfl

/-- A numeral is the text that was read. -/
theorem text_scanNumber {s t : List Char} {x : Numeral} (h : scanNumber s = some (x, t)) :
    x.text ++ t = s := by
  obtain ⟨⟨whole, s'⟩, hw, hx⟩ := Option.map_eq_some_iff.1 h
  cases hx
  simp only [Numeral.text, List.append_assoc]
  rw [text_scanExponent, text_scanFraction, text_scanWhole hw, text_scanMinus]

namespace Value

variable {F : Type} [FloatText F]

/-- What comes after the items of a list or of a dict. -/
def Padding (pad : List Char) : Prop := ∀ c ∈ pad, isSpace c = true

theorem skip_append {pad : List Char} (hp : Padding pad) (s : List Char) :
    skip (pad ++ s) = skip s := by
  induction pad with
  | nil => rfl
  | cons c pad ih =>
    rw [List.cons_append, skip, List.dropWhile_cons, if_pos (hp c List.mem_cons_self)]
    exact ih fun d hd => hp d (List.mem_cons_of_mem _ hd)

theorem skip_cons {c : Char} (hc : isSpace c = false) (s : List Char) : skip (c :: s) = c :: s := by
  simp [skip, hc]

/-- What begins a value: neither a space nor a closing bracket. -/
def Begins (s : List Char) : Prop :=
  ∃ c t, s = c :: t ∧ isSpace c = false ∧ c ≠ ']' ∧ c ≠ '\x7d'

theorem Begins.append {s : List Char} (h : Begins s) (t : List Char) : Begins (s ++ t) := by
  obtain ⟨c, s', rfl, hc⟩ := h
  exact ⟨c, s' ++ t, rfl, hc⟩

theorem Begins.skip {s : List Char} (h : Begins s) : skip s = s := by
  obtain ⟨c, s', rfl, hc, -⟩ := h
  exact skip_cons hc s'

theorem begins_whole {s : List Char} {p : List Char × List Char} (h : scanWhole s = some p) :
    ∃ c s', s = c :: s' ∧ c.isDigit = true := by
  cases s with
  | nil => cases h
  | cons c s =>
    refine ⟨c, s, rfl, ?_⟩
    simp only [scanWhole] at h
    split_ifs at h with h0 hd
    · rw [h0]
      rfl
    · exact hd

theorem begins_numeral {s t : List Char} {x : Numeral} (h : scanNumber s = some (x, t)) :
    ∃ c s', c.isDigit = true ∧ (s = c :: s' ∨ s = '-' :: c :: s') := by
  obtain ⟨whole, hw, -⟩ := Option.map_eq_some_iff.1 h
  obtain ⟨c, s', hs, hc⟩ := begins_whole hw
  refine ⟨c, s', hc, ?_⟩
  unfold scanMinus at hs
  split at hs
  · exact Or.inr (congrArg _ hs)
  · exact Or.inl hs

theorem Begins.of_numeral {s t : List Char} {x : Numeral} (h : scanNumber s = some (x, t)) :
    Begins s := by
  obtain ⟨c, s', hc, rfl | rfl⟩ := begins_numeral h
  · refine ⟨c, s', rfl, Bool.eq_false_iff.2 fun hsp => ?_, ?_, ?_⟩
    · rcases of_decide_eq_true hsp with rfl | rfl | rfl | rfl <;> cases hc
    · rintro rfl
      cases hc
    · rintro rfl
      cases hc
  · exact ⟨'-', c :: s', rfl, by decide⟩

theorem mem_floatConstants {t : List Char} : t ∈ floatConstants ↔
    t = ['N', 'a', 'N'] ∨ t = ['I', 'n', 'f', 'i', 'n', 'i', 't', 'y'] ∨
    t = ['-', 'I', 'n', 'f', 'i', 'n', 'i', 't', 'y'] := by
  simp [floatConstants]

theorem repr_cases (x : F) : FloatText.repr x ∈ floatConstants ∨
    ∃ y, scanNumber (FloatText.repr x) = some (y, []) ∧ y.isInt = false := by
  have h := FloatText.isFloatText_repr x
  unfold isFloatText at h
  rcases Bool.or_eq_true_iff.1 h with h | h
  · exact Or.inl (of_decide_eq_true h)
  · split at h
    · next y hy => exact Or.inr ⟨y, hy, by simpa using h⟩
    · cases h

theorem begins_repr (x : F) : Begins (FloatText.repr x) := by
  rcases repr_cases x with h | ⟨y, h, -⟩
  · rcases mem_floatConstants.1 h with h | h | h <;> rw [h] <;> exact ⟨_, _, rfl, by decide⟩
  · exact Begins.of_numeral h

theorem begins_dump (pad : List Char) (v : Value F) : Begins (dump pad v) := by
  cases v with
  | null => exact ⟨_, _, rfl, by decide⟩
  | bool b => cases b <;> exact ⟨_, _, rfl, by decide⟩
  | int n =>
    obtain ⟨x, hx, -⟩ := scanNumber_intText n
    exact Begins.of_numeral hx
  | float x => exact begins_repr x
  | str s => exact ⟨_, _, rfl, by decide⟩
  | list xs => exact ⟨_, _, rfl, by decide⟩
  | dict kvs => exact ⟨_, _, rfl, by decide⟩

/-- What is neither a string nor a bracket is a constant or a number. -/
theorem scanValue_plain {c : Char} (h : c ≠ '"' ∧ c ≠ '\x7b' ∧ c ≠ '[') (n : ℕ) (s : List Char) :
    (scanValue (n + 1) (c :: s) : Option (Value F × List Char)) =
      (scanConstant (c :: s)).orElse fun _ =>
        (scanNumber (c :: s)).map fun p => (ofNumeral p.1, p.2) := by
  rw [scanValue]
  · rintro t ht
    exact h.1 (List.cons.inj ht).1
  · rintro t ht
    exact h.2.1 (List.cons.inj ht).1
  · rintro t ht
    exact h.2.2 (List.cons.inj ht).1

theorem scanConstant_numeral {s t : List Char} {x : Numeral} (h : scanNumber s = some (x, t)) :
    (scanConstant s : Option (Value F × List Char)) = none := by
  obtain ⟨c, s', hc, hs⟩ := begins_numeral h
  have hne : ∀ {d : Char}, d.isDigit = false → (c == d) = false := by
    intro d hd
    refine beq_eq_false_iff_ne.2 ?_
    rintro rfl
    rw [hc] at hd
    cases hd
  rcases hs with rfl | rfl <;>
    simp [scanConstant, constants, floatConstants, List.dropPrefix?, hne]

theorem scanValue_numeral {s rest : List Char} {x : Numeral} (h : scanNumber s = some (x, []))
    (hr : Stops rest) (n : ℕ) :
    (scanValue (n + 1) (s ++ rest) : Option (Value F × List Char)) = some (ofNumeral x, rest) := by
  have happ := scanNumber_append hr h
  obtain ⟨c, s', hc, hs⟩ := begins_numeral h
  have hplain : ∃ d t, s ++ rest = d :: t ∧ d ≠ '"' ∧ d ≠ '\x7b' ∧ d ≠ '[' := by
    rcases hs with rfl | rfl
    · refine ⟨c, s' ++ rest, rfl, ?_, ?_, ?_⟩ <;>
        · rintro rfl
          cases hc
    · exact ⟨'-', c :: s' ++ rest, rfl, by decide⟩
  obtain ⟨d, t, hd, hne⟩ := hplain
  rw [hd] at happ ⊢
  rw [scanValue_plain hne, scanConstant_numeral happ, happ]
  rfl

theorem mem_constants {s : List Char} {v : Value F} (h : (s, v) ∈ constants) :
    (s, v) = (['n', 'u', 'l', 'l'], .null) ∨ (s, v) = (['t', 'r', 'u', 'e'], .bool true) ∨
    (s, v) = (['f', 'a', 'l', 's', 'e'], .bool false) ∨
    (s, v) = (['N', 'a', 'N'], .float (FloatText.read ['N', 'a', 'N'])) ∨
    (s, v) = (['I', 'n', 'f', 'i', 'n', 'i', 't', 'y'],
      .float (FloatText.read ['I', 'n', 'f', 'i', 'n', 'i', 't', 'y'])) ∨
    (s, v) = (['-', 'I', 'n', 'f', 'i', 'n', 'i', 't', 'y'],
      .float (FloatText.read ['-', 'I', 'n', 'f', 'i', 'n', 'i', 't', 'y'])) := by
  simpa [constants, floatConstants] using h

/-- A constant is read from what begins with it. -/
theorem scanValue_constant {s : List Char} {v : Value F} (h : (s, v) ∈ constants)
    (rest : List Char) (n : ℕ) : scanValue (n + 1) (s ++ rest) = some (v, rest) := by
  have happ : scanConstant (s ++ rest) = some (v, rest) := by
    rcases mem_constants h with heq | heq | heq | heq | heq | heq <;> cases heq <;>
      simp [scanConstant, constants, floatConstants, List.dropPrefix?]
  have hplain : ∃ d t, s ++ rest = d :: t ∧ d ≠ '"' ∧ d ≠ '\x7b' ∧ d ≠ '[' := by
    rcases mem_constants h with heq | heq | heq | heq | heq | heq <;> cases heq <;>
      exact ⟨_, _, rfl, by decide⟩
  obtain ⟨d, t, hd, hne⟩ := hplain
  rw [hd] at happ ⊢
  rw [scanValue_plain hne, happ]
  rfl

theorem scanValue_list {s : List Char} (hs : Begins s) (n : ℕ) :
    (scanValue (n + 1) ('[' :: s) : Option (Value F × List Char)) =
      (scanList n s).map fun p => (.list p.1, p.2) := by
  obtain ⟨c, t, rfl, hc, hne, -⟩ := hs
  rw [scanValue, skip_cons hc]
  split
  · next h => exact absurd (List.cons.inj h).1 hne
  · rfl

theorem scanValue_dict {s : List Char} (hs : Begins s) (n : ℕ) :
    (scanValue (n + 1) ('\x7b' :: s) : Option (Value F × List Char)) =
      (scanItems n [] s).map fun p => (.dict p.1, p.2) := by
  obtain ⟨c, t, rfl, hc, -, hne⟩ := hs
  rw [scanValue, skip_cons hc]
  split
  · next h => exact absurd (List.cons.inj h).1 hne
  · rfl

omit [FloatText F] in
theorem setItem_fresh {kvs : List (Str × Value F)} {k : Str} {v : Value F}
    (h : k ∉ kvs.map Prod.fst) : setItem kvs k v = kvs ++ [(k, v)] := if_neg h

omit [FloatText F] in
theorem fresh_of_nodup {before kvs : List (Str × Value F)} {k : Str} {v : Value F}
    (h : ((before ++ (k, v) :: kvs).map Prod.fst).Nodup) : k ∉ before.map Prod.fst := by
  rw [List.map_append, List.nodup_append] at h
  exact fun hk => h.2.2 _ hk k (by simp) rfl

theorem Begins.intercalate {x : List Char} (h : Begins x) (sep : List Char)
    (ys : List (List Char)) : Begins (sep.intercalate (x :: ys)) := by
  cases ys with
  | nil => exact List.intercalate_singleton ▸ h
  | cons y ys =>
    rw [List.intercalate_cons_cons, List.append_assoc]
    exact h.append _

theorem begins_list (pad : List Char) : ∀ {xs : List (Value F)}, xs ≠ [] →
    Begins ((',' :: pad).intercalate (dumpList pad xs))
  | x :: _, _ => (begins_dump pad x).intercalate _ _

theorem begins_items (pad : List Char) : ∀ {kvs : List (Str × Value F)}, kvs ≠ [] →
    Begins ((',' :: pad).intercalate (dumpItems pad kvs))
  | (k, v) :: _, _ => by
    have hkv : Begins (dumpItem pad (k, v)) := ⟨_, _, rfl, by decide⟩
    exact hkv.intercalate _ _

mutual

/-- What is written for a value is read back as the value. -/
theorem scanValue_dump {pad : List Char} (hp : Padding pad) : ∀ (v : Value F), v.Distinct →
    ∀ (n : ℕ) (rest : List Char), (dump pad v).length < n → Stops rest →
    scanValue n (dump pad v ++ rest) = some (v, rest)
  | v, hv, 0, rest, hn, hr => by omega
  | .null, _, n + 1, rest, _, _ => scanValue_constant (by simp [constants, dump]) rest n
  | .bool b, _, n + 1, rest, _, _ => by
    cases b with
    | false => exact scanValue_constant (by simp [constants, dump]) rest n
    | true => exact scanValue_constant (by simp [constants, dump]) rest n
  | .int i, _, n + 1, rest, _, hr => by
    obtain ⟨x, hx, hint, hval⟩ := scanNumber_intText i
    have hscan := scanValue_numeral (F := F) hx hr n
    rw [ofNumeral, if_pos hint, hval] at hscan
    exact hscan
  | .float x, _, n + 1, rest, _, hr => by
    rcases repr_cases x with hc | ⟨y, hy, hfl⟩
    · have hmem : (FloatText.repr x, Value.float (FloatText.read (FloatText.repr x))) ∈
          (constants : List (List Char × Value F)) :=
        List.mem_append_right _ (List.mem_map.2 ⟨_, hc, rfl⟩)
      rw [FloatText.read_repr] at hmem
      exact scanValue_constant hmem rest n
    · have hscan := scanValue_numeral (F := F) hy hr n
      have htext := text_scanNumber hy
      rw [List.append_nil] at htext
      rw [ofNumeral, hfl, htext, FloatText.read_repr] at hscan
      exact hscan
  | .str s, _, n + 1, rest, _, _ => by
    simp only [dump, quoted, List.cons_append, List.append_assoc, scanValue]
    rw [List.nil_append, scanString_quoted]
    rfl
  | .list xs, hv, n + 1, rest, hn, _ => by
    simp only [dump, List.cons_append, List.append_assoc, List.nil_append] at hn ⊢
    by_cases hxs : xs = []
    · subst hxs
      rfl
    · simp only [List.length_cons, List.length_append, List.length_nil] at hn
      rw [scanValue_list ((begins_list pad hxs).append _),
        scanList_dump hp xs hv hxs n rest (by omega)]
      rfl
  | .dict kvs, hv, n + 1, rest, hn, _ => by
    simp only [dump, List.cons_append, List.append_assoc, List.nil_append] at hn ⊢
    by_cases hkvs : kvs = []
    · subst hkvs
      rfl
    · simp only [List.length_cons, List.length_append, List.length_nil] at hn
      rw [scanValue_dict ((begins_items pad hkvs).append _),
        scanItems_dump hp kvs hv.2 hkvs [] hv.1 n rest (by omega)]
      rfl

theorem scanList_dump {pad : List Char} (hp : Padding pad) : ∀ (xs : List (Value F)),
    DistinctList xs → xs ≠ [] → ∀ (n : ℕ) (rest : List Char),
    ((',' :: pad).intercalate (dumpList pad xs)).length + 1 < n →
    scanList n ((',' :: pad).intercalate (dumpList pad xs) ++ ']' :: rest) = some (xs, rest)
  | [x], hv, _, n, rest, hn => by
    obtain ⟨m, rfl⟩ : ∃ m, n = m + 1 := ⟨n - 1, by omega⟩
    simp only [dumpList, List.intercalate_singleton] at hn ⊢
    rw [scanList, scanValue_dump hp x hv.1 m _ (by omega) (Stops.cons (by decide) _)]
    simp only [Option.bind_some]
    rw [skip_cons (by decide)]
    rfl
  | x :: y :: ys, hv, _, n, rest, hn => by
    obtain ⟨m, rfl⟩ : ∃ m, n = m + 1 := ⟨n - 1, by omega⟩
    obtain ⟨hx, hys⟩ := hv
    have hne : y :: ys ≠ [] := List.cons_ne_nil _ _
    have htext : (',' :: pad).intercalate (dumpList pad (x :: y :: ys)) = dump pad x ++
        (',' :: pad) ++
        (',' :: pad).intercalate (dumpList pad (y :: ys)) := List.intercalate_cons_cons
    rw [htext] at hn ⊢
    simp only [List.length_append, List.length_cons] at hn
    simp only [List.append_assoc, List.cons_append]
    rw [scanList, scanValue_dump hp x hx m _ (by omega) (Stops.cons (by decide) _)]
    simp only [Option.bind_some]
    rw [skip_cons (by decide)]
    simp only
    rw [skip_append hp, ((begins_list pad hne).append _).skip,
      scanList_dump hp (y :: ys) hys hne m rest (by omega)]
    rfl

theorem scanItems_dump {pad : List Char} (hp : Padding pad) : ∀ (kvs : List (Str × Value F)),
    DistinctItems kvs → kvs ≠ [] → ∀ (before : List (Str × Value F)),
    ((before ++ kvs).map Prod.fst).Nodup → ∀ (n : ℕ) (rest : List Char),
    ((',' :: pad).intercalate (dumpItems pad kvs)).length + 1 < n →
    scanItems n before ((',' :: pad).intercalate (dumpItems pad kvs) ++ '\x7d' :: rest) =
      some (before ++ kvs, rest)
  | [(k, v)], hv, _, before, hnd, n, rest, hn => by
    obtain ⟨m, rfl⟩ : ∃ m, n = m + 1 := ⟨n - 1, by omega⟩
    simp only [dumpItems, List.intercalate_singleton] at hn ⊢
    simp only [dumpItem, quoted, List.cons_append, List.append_assoc, List.nil_append,
      List.length_cons, List.length_append] at hn ⊢
    rw [scanItems, scanString_quoted]
    simp only [Option.bind_some]
    rw [skip_cons (by decide)]
    simp only
    rw [skip_append hp, ((begins_dump pad v).append _).skip,
      scanValue_dump hp v hv.1 m _ (by omega) (Stops.cons (by decide) _)]
    simp only [Option.bind_some]
    rw [skip_cons (by decide)]
    simp only
    rw [setItem_fresh (fresh_of_nodup hnd)]
  | (k, v) :: kv :: kvs, hv, _, before, hnd, n, rest, hn => by
    obtain ⟨m, rfl⟩ : ∃ m, n = m + 1 := ⟨n - 1, by omega⟩
    obtain ⟨hx, hkvs⟩ := hv
    have hne : kv :: kvs ≠ [] := List.cons_ne_nil _ _
    have htext : (',' :: pad).intercalate (dumpItems pad ((k, v) :: kv :: kvs)) =
        dumpItem pad (k, v) ++ (',' :: pad) ++
        (',' :: pad).intercalate (dumpItems pad (kv :: kvs)) :=
      List.intercalate_cons_cons
    rw [htext] at hn ⊢
    simp only [dumpItem, quoted, List.cons_append, List.append_assoc, List.nil_append,
      List.length_cons, List.length_append] at hn ⊢
    rw [scanItems, scanString_quoted]
    simp only [Option.bind_some]
    rw [skip_cons (by decide)]
    simp only
    rw [skip_append hp, ((begins_dump pad v).append _).skip,
      scanValue_dump hp v hx m _ (by omega) (Stops.cons (by decide) _)]
    simp only [Option.bind_some]
    rw [skip_cons (by decide)]
    simp only
    rw [skip_append hp, ((begins_items pad hne).append _).skip, setItem_fresh (fresh_of_nodup hnd)]
    have htail := scanItems_dump hp (kv :: kvs) hkvs hne (before ++ [(k, v)]) (by simpa using hnd) m
      rest (by omega)
    rw [List.append_assoc] at htail
    exact htail

end

theorem loads_dump {pad : List Char} (hp : Padding pad) {v : Value F} (hv : v.Distinct) :
    loads (dump pad v) = some v := by
  have hscan := scanValue_dump hp v hv ((dump pad v).length + 1) [] (by omega) Stops.nil
  rw [List.append_nil] at hscan
  unfold loads
  rw [(begins_dump pad v).skip, hscan]
  rfl

/-- `json.loads(json.dumps(v)) == v` -/
theorem loads_dumps {v : Value F} (hv : v.Distinct) : loads (dumps v) = some v :=
  loads_dump (by simp [Padding, isSpace]) hv

omit [FloatText F] in
theorem distinctItems_iff {kvs : List (Str × Value F)} :
    DistinctItems kvs ↔ ∀ kv ∈ kvs, kv.2.Distinct := by
  induction kvs with
  | nil => simp [DistinctItems]
  | cons kv kvs ih =>
    obtain ⟨k, v⟩ := kv
    rw [List.forall_mem_cons, ← ih]
    rfl

omit [FloatText F] in
theorem setItem_distinct {kvs : List (Str × Value F)} {k : Str} {v : Value F}
    (h : (Value.dict kvs).Distinct) (hv : v.Distinct) :
    (Value.dict (setItem kvs k v)).Distinct := by
  obtain ⟨hnd, hkvs⟩ := h
  unfold setItem
  split_ifs with hk
  · have hkeys : (kvs.map fun kv => if kv.1 = k then (k, v) else kv).map Prod.fst =
        kvs.map Prod.fst := by
      rw [List.map_map]
      refine List.map_congr_left fun kv _ => ?_
      simp only [Function.comp]
      split_ifs with he
      · exact he.symm
      · rfl
    refine ⟨hkeys ▸ hnd, distinctItems_iff.2 fun kv hkv => ?_⟩
    obtain ⟨kv', hkv', rfl⟩ := List.mem_map.1 hkv
    split_ifs
    · exact hv
    · exact distinctItems_iff.1 hkvs kv' hkv'
  · refine ⟨?_, distinctItems_iff.2 fun kv hkv => ?_⟩
    · rw [List.map_append, List.map_singleton, List.nodup_append]
      refine ⟨hnd, List.nodup_singleton k, fun a ha b hb => ?_⟩
      rw [List.mem_singleton.1 hb]
      rintro rfl
      exact hk ha
    · rcases List.mem_append.1 hkv with hkv | hkv
      · exact distinctItems_iff.1 hkvs kv hkv
      · rw [List.mem_singleton.1 hkv]
        exact hv

theorem plain_distinct {s rest : List Char} {v : Value F}
    (h : ((scanConstant s).orElse fun _ =>
      (scanNumber s).map fun p => (ofNumeral p.1, p.2)) = some (v, rest)) : v.Distinct := by
  cases hc : (scanConstant s : Option (Value F × List Char)) with
  | some p =>
    rw [hc] at h
    cases h
    obtain ⟨⟨t, w⟩, hmem, hw⟩ := List.exists_of_findSome?_eq_some hc
    obtain ⟨t', -, hv⟩ := Option.map_eq_some_iff.1 hw
    cases hv
    rcases mem_constants hmem with heq | heq | heq | heq | heq | heq <;> cases heq <;> trivial
  | none =>
    rw [hc] at h
    obtain ⟨⟨x, t⟩, -, hv⟩ := Option.map_eq_some_iff.1 h
    cases hv
    unfold ofNumeral
    split_ifs <;> trivial

/-- What is read has no key twice. -/
theorem scan_distinct (n : ℕ) :
    (∀ s (v : Value F) rest, scanValue n s = some (v, rest) → v.Distinct) ∧
    (∀ s (xs : List (Value F)) rest, scanList n s = some (xs, rest) → DistinctList xs) ∧
    (∀ s (kvs kvs' : List (Str × Value F)) rest, (Value.dict kvs).Distinct →
      scanItems n kvs s = some (kvs', rest) → (Value.dict kvs').Distinct) := by
  induction n with
  | zero =>
    refine ⟨fun s v rest h => ?_, fun s xs rest h => ?_, fun s kvs kvs' rest _ h => ?_⟩
    · rw [scanValue] at h
      cases h
    · rw [scanList] at h
      cases h
    · rw [scanItems] at h
      cases h
  | succ n ih =>
    obtain ⟨ihv, ihl, ihi⟩ := ih
    have hempty : (Value.dict ([] : List (Str × Value F))).Distinct := ⟨List.nodup_nil, trivial⟩
    refine ⟨fun s v rest h => ?_, fun s xs rest h => ?_, fun s kvs kvs' rest hkvs h => ?_⟩
    · rw [scanValue.eq_def] at h
      dsimp only at h
      split at h
      · obtain ⟨p, -, hp⟩ := Option.map_eq_some_iff.1 h
        cases hp
        trivial
      · split at h
        · cases h
          exact hempty
        · obtain ⟨p, hp, hv⟩ := Option.map_eq_some_iff.1 h
          cases hv
          exact ihi _ _ _ _ hempty hp
      · split at h
        · cases h
          trivial
        · obtain ⟨p, hp, hv⟩ := Option.map_eq_some_iff.1 h
          cases hv
          exact ihl _ _ _ hp
      · exact plain_distinct h
    · rw [scanList] at h
      obtain ⟨⟨x, s1⟩, hx, h⟩ := Option.bind_eq_some_iff.1 h
      dsimp only at h
      split at h
      · cases h
        exact ⟨ihv _ _ _ hx, trivial⟩
      · obtain ⟨⟨ys, s2⟩, hys, h⟩ := Option.map_eq_some_iff.1 h
        cases h
        exact ⟨ihv _ _ _ hx, ihl _ _ _ hys⟩
      · cases h
    · rw [scanItems.eq_def] at h
      dsimp only at h
      split at h
      · obtain ⟨⟨k, s1⟩, hk, h⟩ := Option.bind_eq_some_iff.1 h
        dsimp only at h
        split at h
        · obtain ⟨⟨v, s2⟩, hv, h⟩ := Option.bind_eq_some_iff.1 h
          have hset := setItem_distinct (k := k) hkvs (ihv _ _ _ hv)
          dsimp only at h
          split at h
          · cases h
            exact hset
          · exact ihi _ _ _ _ hset h
          · cases h
        · cases h
      · cases h

theorem loads_distinct {s : List Char} {v : Value F} (h : loads s = some v) : v.Distinct := by
  obtain ⟨⟨w, rest⟩, hw, hv⟩ := Option.bind_eq_some_iff.1 h
  split_ifs at hv
  cases hv
  exact (scan_distinct _).1 _ _ _ hw

section
omit [FloatText F]

theorem sortKeysItems_eq (kvs : List (Str × Value F)) :
    sortKeysItems kvs = kvs.map fun kv => (kv.1, kv.2.sortKeys) := by
  induction kvs with
  | nil => rfl
  | cons kv kvs ih =>
    obtain ⟨k, v⟩ := kv
    rw [List.map_cons, ← ih]
    rfl

mutual

theorem sortKeys_distinct : ∀ {v : Value F}, v.Distinct → v.sortKeys.Distinct
  | .null, _ => trivial
  | .bool _, _ => trivial
  | .int _, _ => trivial
  | .float _, _ => trivial
  | .str _, _ => trivial
  | .list _, h => sortKeysList_distinct h
  | .dict kvs, h => by
    have hperm := List.perm_insertionSort (fun a b => keyLe a b) (sortKeysItems kvs)
    have hkeys : (sortKeysItems kvs).map Prod.fst = kvs.map Prod.fst := by
      rw [sortKeysItems_eq, List.map_map]
      rfl
    refine ⟨(hperm.map _).nodup_iff.2 (hkeys ▸ h.1), distinctItems_iff.2 fun kv hkv => ?_⟩
    exact distinctItems_iff.1 (sortKeysItems_distinct h.2) kv (hperm.mem_iff.1 hkv)

theorem sortKeysList_distinct : ∀ {xs : List (Value F)}, DistinctList xs →
    DistinctList (sortKeysList xs)
  | [], _ => trivial
  | _ :: _, h => ⟨sortKeys_distinct h.1, sortKeysList_distinct h.2⟩

theorem sortKeysItems_distinct : ∀ {kvs : List (Str × Value F)}, DistinctItems kvs →
    DistinctItems (sortKeysItems kvs)
  | [], _ => trivial
  | (_, _) :: _, h => ⟨sortKeys_distinct h.1, sortKeysItems_distinct h.2⟩

end

mutual

/-- Values are the same, if they are once their keys are sorted. -/
theorem same_of_sortKeys : ∀ {v w : Value F}, v.sortKeys = w.sortKeys → v.Same w
  | .null, w, h => by cases w <;> first | exact h | cases h
  | .bool _, w, h => by cases w <;> first | exact h | cases h
  | .int _, w, h => by cases w <;> first | exact h | cases h
  | .float _, w, h => by cases w <;> first | exact h | cases h
  | .str _, w, h => by cases w <;> first | exact h | cases h
  | .list xs, w, h => by
    cases w with
    | list ys => exact sameList_of_sortKeys (Value.list.inj h)
    | _ => cases h
  | .dict kvs, w, h => by
    cases w with
    | dict kvs' =>
      have hsorted := Value.dict.inj h
      have hperm := ((List.perm_insertionSort _ (sortKeysItems kvs)).symm.trans
        (hsorted ▸ List.perm_insertionSort (fun a b => keyLe a b) (sortKeysItems kvs')))
      refine ⟨?_, sameItems_of_sortKeys fun kv hkv => ?_⟩
      · have hlen := hperm.length_eq
        simpa [sortKeysItems_eq] using hlen
      · exact hperm.mem_iff.1 hkv
    | _ => cases h

theorem sameList_of_sortKeys : ∀ {xs ys : List (Value F)}, sortKeysList xs = sortKeysList ys →
    SameList xs ys
  | [], [], _ => rfl
  | [], _ :: _, h => by cases h
  | _ :: _, [], h => by cases h
  | _ :: _, _ :: _, h =>
    ⟨same_of_sortKeys (List.cons.inj h).1, sameList_of_sortKeys (List.cons.inj h).2⟩

theorem sameItems_of_sortKeys : ∀ {kvs kvs' : List (Str × Value F)},
    (∀ kv ∈ sortKeysItems kvs, kv ∈ sortKeysItems kvs') → SameItems kvs kvs'
  | [], _, _ => trivial
  | (k, v) :: rest, kvs', h => by
    refine ⟨?_, sameItems_of_sortKeys fun kv hkv => h kv (List.mem_cons_of_mem _ hkv)⟩
    have hmem := h (k, v.sortKeys) List.mem_cons_self
    rw [sortKeysItems_eq] at hmem
    obtain ⟨⟨k', w⟩, hw, heq⟩ := List.mem_map.1 hmem
    obtain ⟨rfl, hs⟩ := Prod.mk.inj heq
    exact ⟨w, hw, same_of_sortKeys hs.symm⟩

end

end

/-- The canonical text determines a value. -/
theorem same_of_canonical {v w : Value F} (hv : v.Distinct) (hw : w.Distinct)
    (h : canonical v = canonical w) : v.Same w := by
  have hp : Padding [] := by simp [Padding]
  have hsorted : some v.sortKeys = some w.sortKeys := by
    rw [← loads_dump hp (sortKeys_distinct hv), ← loads_dump hp (sortKeys_distinct hw)]
    exact congrArg loads h
  exact same_of_sortKeys (Option.some.inj hsorted)

end Value
end JsonText
