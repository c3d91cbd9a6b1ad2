import ScriptBundle.Proofs.Callback

/-! Lowering as a single sweep from left to right over the text as it was given. At every place either
a header stands, which is lowered, or one character is copied. The four rules come to this although
each of them goes over what the ones before it have written. -/
namespace ScriptBundle.Downlevel
open Text

section Headers

theorem headerCall {callback : Callback} {taken : List Char} (header : Header callback taken)
    (rest : List Char) : ∃ more, taken ++ rest = callback.call ++ more := by
  cases header with
  | mk listed blank =>
    simp only [List.append_assoc]
    exact ⟨_, rfl⟩

theorem headersApart {callback other : Callback} {taken rest takenOther restOther : List Char}
    (header : Header callback taken) (headerOther : Header other takenOther)
    (same : taken ++ rest = takenOther ++ restOther)
    (different : ∀ more, literal? callback.call (other.call ++ more) = none) : False := by
  obtain ⟨more, source⟩ := headerCall header rest
  obtain ⟨moreOther, sourceOther⟩ := headerCall headerOther restOther
  have missed := different moreOther
  rw [← sourceOther, ← same, source, literalAppend] at missed
  cases missed

theorem pairUnique {call taken rest takenOther restOther first second firstOther secondOther : List Char}
    (spelled : Spelled call [first, second] taken)
    (spelledOther : Spelled call [firstOther, secondOther] takenOther)
    (same : taken ++ rest = takenOther ++ restOther) :
    first = firstOther ∧ second = secondOther ∧ rest = restOther := by
  have read := pairHeaderAppend spelled rest
  rw [same, pairHeaderAppend spelledOther restOther] at read
  cases read
  exact ⟨rfl, rfl, rfl⟩

theorem headerUnique {callback other : Callback} {taken rest takenOther restOther : List Char}
    (header : Header callback taken) (headerOther : Header other takenOther)
    (same : taken ++ rest = takenOther ++ restOther) : callback = other ∧ rest = restOther := by
  cases callback <;> cases other
  case filter.filter name nameOther =>
    have read := singleHeaderAppend header rest
    rw [same] at read
    cases read.symm.trans (singleHeaderAppend headerOther restOther)
    exact ⟨rfl, rfl⟩
  case map.map | forEach.forEach =>
    obtain ⟨rfl, rfl, rfl⟩ := pairUnique header headerOther same
    exact ⟨rfl, rfl⟩
  all_goals exact (headersApart header headerOther same fun _ => rfl).elim

end Headers

section Rules

theorem exactTakes {matched : Match} {shape : List Char → List Char → Prop}
    (exact : ∀ {text out rest}, matched text = some (out, rest) ↔
      ∃ taken, shape taken out ∧ text = taken ++ rest)
    (rewrites : ∀ {taken out}, shape taken out → Rewrites taken out) {text out rest : List Char}
    (found : matched text = some (out, rest)) :
    ∃ taken, Rewrites taken out ∧ text = taken ++ rest ∧
      ∀ other, matched (taken ++ other) = some (out, other) := by
  obtain ⟨taken, shaped, source⟩ := exact.mp found
  exact ⟨taken, rewrites shaped, source, fun other => exact.mpr ⟨taken, shaped, rfl⟩⟩

/- All that a match of any rule can be. What it takes is taken no matter what follows. -/
theorem rulesTake {rule : Rule} (member : rule ∈ rules) {text out rest : List Char}
    (found : rule.at? text = some (out, rest)) :
    ∃ taken, Rewrites taken out ∧ text = taken ++ rest ∧
      ∀ other, rule.at? (taken ++ other) = some (out, other) := by
  simp only [rules, List.mem_cons, List.not_mem_nil, or_false] at member
  rcases member with rfl | rfl | rfl | rfl
  · refine exactTakes filterSingleExact ?_ found
    rintro taken out ⟨name, spelled, rfl⟩
    exact .header spelled
  · refine exactTakes mapIdentityExact ?_ found
    rintro taken out ⟨first, second, header, body, spelled, returns, rfl, rfl⟩
    exact .identity spelled returns
  · refine exactTakes mapPairExact ?_ found
    rintro taken out ⟨first, second, spelled, rfl⟩
    exact .header spelled
  · refine exactTakes forEachPairExact ?_ found
    rintro taken out ⟨first, second, spelled, rfl⟩
    exact .header spelled

theorem rulesFound {rule : Rule} (member : rule ∈ rules) {text out rest : List Char}
    (found : rule.at? text = some (out, rest)) :
    ∃ callback taken behind, Header callback taken ∧ text = taken ++ behind ∧
      (out = callback.written ∨ out = identityWritten) := by
  obtain ⟨taken, rewrites, source, _⟩ := rulesTake member found
  cases rewrites with
  | header spelled => exact ⟨_, taken, rest, spelled, source, .inl rfl⟩
  | @identity _ _ header body spelled =>
    exact ⟨_, header, body ++ rest, spelled, by rw [source, List.append_assoc], .inr rfl⟩

theorem writtenQuiet (callback other : Callback) (behind : List Char) :
    literal? callback.call (other.written ++ behind) = none := by
  cases callback <;> cases other <;> rfl

theorem identityQuiet (callback : Callback) (behind : List Char) :
    literal? callback.call (identityWritten ++ behind) = none := by
  cases callback <;> rfl

theorem rulesApart : Apart rules := by
  intro rule member other isOther text out rest found behind
  obtain ⟨writer, _, _, _, _, written⟩ := rulesFound isOther found
  cases again : rule.at? (out ++ behind) with
  | none => rfl
  | some hit =>
    obtain ⟨outAgain, left⟩ := hit
    obtain ⟨callback, taken, more, header, source, _⟩ := rulesFound member again
    obtain ⟨called, start⟩ := headerCall header more
    have calls : literal? callback.call (out ++ behind) = some called := by
      rw [source, start, literalAppend]
    rcases written with rfl | rfl
    · cases calls.symm.trans (writtenQuiet callback writer behind)
    · cases calls.symm.trans (identityQuiet callback behind)

theorem rulesLocal : ∀ rule ∈ rules, Local rule.at? := by
  intro rule member
  constructor
  · intro text out rest found
    obtain ⟨taken, rewrites, rfl, _⟩ := rulesTake member found
    obtain ⟨⟨inner, rfl, dotless⟩, written, rfl, plain⟩ := rewritesDotted rewrites
    exact ⟨inner, written, rfl, dotless, rfl, plain⟩
  · intro inner out rest other found _
    obtain ⟨taken, _, source, still⟩ := rulesTake member found
    have same : '.' :: inner = taken := List.append_cancel_right source
    rw [← List.cons_append, same]
    exact still other

end Rules

section Lowers

theorem firstOfRules (text : List Char) : firstOf rules text =
    (filterSingle.at? text).or ((mapIdentity.at? text).or ((mapPair.at? text).or (forEachPair.at? text))) := by
  have nothing : firstOf [] text = none := rfl
  simp only [rules, firstOfCons, nothing, Option.or_none]

theorem filterMisses {callback : Callback} {taken : List Char} (header : Header callback taken)
    (different : ∀ name, callback ≠ .filter name) (rest : List Char) :
    filterSingle.at? (taken ++ rest) = none := by
  cases found : filterSingle.at? (taken ++ rest) with
  | none => rfl
  | some hit =>
    obtain ⟨out, left⟩ := hit
    obtain ⟨other, ⟨name, headerOther, _⟩, source⟩ := filterSingleExact.mp found
    exact absurd (headerUnique header headerOther source).1 (different name)

theorem mapPairMisses {callback : Callback} {taken : List Char} (header : Header callback taken)
    (different : ∀ first second, callback ≠ .map first second) (rest : List Char) :
    mapPair.at? (taken ++ rest) = none := by
  cases found : mapPair.at? (taken ++ rest) with
  | none => rfl
  | some hit =>
    obtain ⟨out, left⟩ := hit
    obtain ⟨other, ⟨first, second, headerOther, _⟩, source⟩ := mapPairExact.mp found
    exact absurd (headerUnique header headerOther source).1 (different first second)

theorem mapIdentityMisses {callback : Callback} {taken rest : List Char} (header : Header callback taken)
    (other : ¬ callback.IsIdentity rest) : mapIdentity.at? (taken ++ rest) = none := by
  cases found : mapIdentity.at? (taken ++ rest) with
  | none => rfl
  | some hit =>
    obtain ⟨out, left⟩ := hit
    obtain ⟨_, ⟨first, second, headerOther, body, spelled, returns, rfl, _⟩, source⟩ :=
      mapIdentityExact.mp found
    rw [List.append_assoc] at source
    obtain ⟨rfl, behind⟩ := headerUnique header spelled source
    exact absurd ⟨body, left, returns, behind⟩ other

theorem firstLowers {text out rest : List Char} (found : firstOf rules text = some (out, rest)) :
    ∃ taken, Lowers taken out rest ∧ text = taken ++ rest := by
  rw [firstOfRules] at found
  rcases Option.or_eq_some_iff.mp found with single | ⟨_, found⟩
  · obtain ⟨taken, ⟨name, header, rfl⟩, source⟩ := filterSingleExact.mp single
    exact ⟨taken, .header header id, source⟩
  rcases Option.or_eq_some_iff.mp found with identity | ⟨missed, found⟩
  · obtain ⟨_, ⟨first, second, header, body, spelled, returns, rfl, rfl⟩, source⟩ :=
      mapIdentityExact.mp identity
    exact ⟨header ++ body, .identity spelled returns, source⟩
  rcases Option.or_eq_some_iff.mp found with pair | ⟨_, each⟩
  · obtain ⟨taken, ⟨first, second, header, rfl⟩, rfl⟩ := mapPairExact.mp pair
    refine ⟨taken, .header header ?_, rfl⟩
    rintro ⟨body, after, returns, rfl⟩
    have whole : mapIdentity.at? (taken ++ (body ++ after)) = some (identityWritten, after) :=
      mapIdentityExact.mpr ⟨taken ++ body, ⟨first, second, taken, body, header, returns, rfl, rfl⟩,
        (List.append_assoc ..).symm⟩
    cases missed.symm.trans whole
  · obtain ⟨taken, ⟨first, second, header, rfl⟩, source⟩ := forEachPairExact.mp each
    exact ⟨taken, .header header id, source⟩

theorem lowersFirst {taken out rest : List Char} (lowers : Lowers taken out rest) :
    firstOf rules (taken ++ rest) = some (out, rest) := by
  rw [firstOfRules]
  cases lowers with
  | @header callback _ _ spelled other =>
    cases callback with
    | filter name => rw [filterSingleExact.mpr ⟨taken, ⟨name, spelled, rfl⟩, rfl⟩, Option.some_or]
    | map first second =>
      rw [filterMisses spelled (fun _ => Callback.noConfusion), mapIdentityMisses spelled other, Option.none_or,
        Option.none_or, mapPairExact.mpr ⟨taken, ⟨first, second, spelled, rfl⟩, rfl⟩, Option.some_or]
    | forEach first second =>
      rw [filterMisses spelled (fun _ => Callback.noConfusion), mapIdentityMisses spelled other,
        mapPairMisses spelled (fun _ _ => Callback.noConfusion), Option.none_or, Option.none_or, Option.none_or]
      exact forEachPairExact.mpr ⟨taken, ⟨first, second, spelled, rfl⟩, rfl⟩
  | @identity first second header body _ spelled returns =>
    rw [List.append_assoc, filterMisses spelled (fun _ => Callback.noConfusion), Option.none_or,
      ← List.append_assoc,
      mapIdentityExact.mpr ⟨header ++ body, ⟨first, second, header, body, spelled, returns, rfl, rfl⟩, rfl⟩,
      Option.some_or]

theorem headedLowers {text : List Char} :
    Headed text ↔ ∃ taken out rest, Lowers taken out rest ∧ text = taken ++ rest := by
  constructor
  · rintro ⟨callback, taken, rest, spelled, rfl⟩
    by_cases whole : callback.IsIdentity rest
    · cases callback with
      | filter _ | forEach _ _ => exact whole.elim
      | map first second =>
        obtain ⟨body, after, returns, rfl⟩ := whole
        exact ⟨taken ++ body, _, after, .identity spelled returns, (List.append_assoc ..).symm⟩
    · exact ⟨taken, _, rest, .header spelled whole, rfl⟩
  · rintro ⟨taken, out, rest, lowers, rfl⟩
    cases lowers with
    | header spelled => exact ⟨_, taken, rest, spelled, rfl⟩
    | @identity _ _ header body _ spelled => exact ⟨_, header, body ++ rest, spelled, List.append_assoc ..⟩

theorem headedFirst {text : List Char} : Headed text ↔ (firstOf rules text).isSome = true := by
  rw [headedLowers, Option.isSome_iff_exists]
  constructor
  · rintro ⟨taken, out, rest, lowers, rfl⟩
    exact ⟨(out, rest), lowersFirst lowers⟩
  · rintro ⟨⟨out, rest⟩, found⟩
    obtain ⟨taken, lowers⟩ := firstLowers found
    exact ⟨taken, out, rest, lowers⟩

instance (text : List Char) : Decidable (Headed text) := decidable_of_iff _ headedFirst.symm

theorem runLowers {taken out rest : List Char} (lowers : Lowers taken out rest) :
    runAll rules (taken ++ rest) = prepend out 1 (runAll rules rest) :=
  runAllHit rulesLocal rulesApart (lowersFirst lowers)

theorem runCopies {c : Char} {rest : List Char} (other : ¬ Headed (c :: rest)) :
    runAll rules (c :: rest) = prepend [c] 0 (runAll rules rest) := by
  refine runAllMiss rulesLocal ?_
  rw [headedFirst, Option.not_isSome_iff_eq_none] at other
  exact other

theorem runAround {taken out rest : List Char} (lowers : Lowers taken out rest) (before : List Char) :
    runAll rules (before ++ (taken ++ rest)) =
      prepend ((runAll rules before).1 ++ out) ((runAll rules before).2 + 1) (runAll rules rest) := by
  have lowered := runLowers lowers
  obtain ⟨⟨inner, rfl, _⟩, _⟩ := lowersDotted lowers
  rw [List.cons_append] at lowered ⊢
  rw [runAllCut rulesLocal rulesApart, lowered, prependTwice]

theorem lowerRuns (text : String) :
    runAll rules text.toList = ((lower text).text.toList, (lower text).count) := by
  simp only [lower, runAll, String.toList_ofList]

theorem lowerAround {taken out rest : String} (lowers : Lowers taken.toList out.toList rest.toList)
    (before : String) :
    (lower (before ++ taken ++ rest)).text = (lower before).text ++ out ++ (lower rest).text := by
  have around := runAround lowers before.toList
  rw [← List.append_assoc, ← String.toList_append, ← String.toList_append, lowerRuns, lowerRuns, lowerRuns]
    at around
  apply String.toList_injective
  rw [String.toList_append, String.toList_append]
  exact congrArg Prod.fst around

end Lowers

/- A sweep from a place on: the text that is left there, what is written for it, and the places of the
headers that are lowered on the way. -/
inductive Sweep : Nat → List Char → List Char → List Nat → Prop where
  | done (place : Nat) : Sweep place [] [] []
  | lowered {place : Nat} {taken out rest written : List Char} {places : List Nat}
      (found : Lowers taken out rest) (next : Sweep (place + taken.length) rest written places) :
      Sweep place (taken ++ rest) (out ++ written) (place :: places)
  | copied {place : Nat} {c : Char} {rest written : List Char} {places : List Nat}
      (other : ¬ Headed (c :: rest)) (next : Sweep (place + 1) rest written places) :
      Sweep place (c :: rest) (c :: written) places

def headerPlaces (text : List Char) : List Nat :=
  (List.range text.length).filter fun place => Headed (text.drop place)

theorem headerPlacesCons (c : Char) (rest : List Char) :
    headerPlaces (c :: rest) =
      (if Headed (c :: rest) then [0] else []) ++ (headerPlaces rest).map (· + 1) := by
  have tail : ((List.range rest.length).map (· + 1)).filter (fun place => Headed ((c :: rest).drop place)) =
      (headerPlaces rest).map (· + 1) := by
    rw [List.filter_map]
    rfl
  have places : List.range (rest.length + 1) = 0 :: (List.range rest.length).map (· + 1) :=
    List.range_succ_eq_map
  rw [headerPlaces, List.length_cons, places, List.filter_cons, tail, List.drop_zero]
  by_cases headed : Headed (c :: rest)
  · simp [headed]
  · simp [headed]

theorem headerPlacesPlain {plain : List Char} (dotless : '.' ∉ plain) (rest : List Char) :
    headerPlaces (plain ++ rest) = (headerPlaces rest).map (· + plain.length) := by
  induction plain with
  | nil => simp
  | cons c plain ih =>
    obtain ⟨other, dotless⟩ := not_or.mp (List.mem_cons.not.mp dotless)
    have copied : ¬ Headed (c :: (plain ++ rest)) := by
      rw [headedFirst, (Local.firstOf rulesLocal).missesOther (Ne.symm other)]
      exact Bool.false_ne_true
    rw [List.cons_append, headerPlacesCons, if_neg copied, ih dotless, List.nil_append, List.map_map]
    rfl

theorem sweepPlaces {place : Nat} {text out : List Char} {places : List Nat}
    (sweep : Sweep place text out places) : places = (headerPlaces text).map (place + ·) := by
  induction sweep with
  | done => rfl
  | @lowered place taken out rest written places found next ih =>
    have headed : Headed (taken ++ rest) := headedLowers.mpr ⟨taken, out, rest, found, rfl⟩
    obtain ⟨⟨inner, rfl, dotless⟩, _⟩ := lowersDotted found
    rw [List.cons_append] at headed
    rw [ih, List.cons_append, headerPlacesCons, if_pos headed, headerPlacesPlain dotless, List.map_map,
      List.singleton_append, List.map_cons, List.map_map]
    congr 1
    refine List.map_congr_left fun a _ => ?_
    simp only [Function.comp_apply, List.length_cons]
    omega
  | copied other next ih =>
    rw [ih, headerPlacesCons, if_neg other, List.nil_append, List.map_map]
    refine List.map_congr_left fun a _ => ?_
    simp only [Function.comp_apply]
    omega

theorem sweepRuns {place : Nat} {text out : List Char} {places : List Nat}
    (sweep : Sweep place text out places) : runAll rules text = (out, places.length) := by
  induction sweep with
  | done => exact runAllNil
  | lowered found _ ih =>
    rw [runLowers found, ih]
    simp [prepend, Nat.add_comm]
  | copied other _ ih =>
    rw [runCopies other, ih]
    simp [prepend]

theorem sweepOf (place : Nat) (text : List Char) : ∃ out places, Sweep place text out places := by
  induction text using matchwise (firstOf rules) (Local.firstOf rulesLocal).shorter generalizing place with
  | nil => exact ⟨[], [], .done place⟩
  | hit text out rest found ih =>
    obtain ⟨taken, lowers, rfl⟩ := firstLowers found
    obtain ⟨written, places, next⟩ := ih (place + taken.length)
    exact ⟨out ++ written, place :: places, .lowered lowers next⟩
  | miss c rest missed ih =>
    have other : ¬ Headed (c :: rest) := by
      rw [headedFirst, missed]
      exact Bool.false_ne_true
    obtain ⟨written, places, next⟩ := ih (place + 1)
    exact ⟨c :: written, places, .copied other next⟩

/- There is one sweep over a text. It writes what the passes write, at the places of all headers. -/
theorem lowersInOneSweep (text : String) :
    (∀ out places, Sweep 0 text.toList out places ↔
      out = (lower text).text.toList ∧ places = headerPlaces text.toList) ∧
    (lower text).count = (headerPlaces text.toList).length := by
  have swept {out : List Char} {places : List Nat} (sweep : Sweep 0 text.toList out places) :
      out = (lower text).text.toList ∧ places.length = (lower text).count ∧
        places = headerPlaces text.toList := by
    have run := (sweepRuns sweep).symm.trans (lowerRuns text)
    obtain ⟨same, count⟩ := Prod.mk.inj run
    exact ⟨same, count, by simpa using sweepPlaces sweep⟩
  obtain ⟨out, places, sweep⟩ := sweepOf 0 text.toList
  obtain ⟨rfl, count, rfl⟩ := swept sweep
  refine ⟨fun other others => ⟨fun again => ?_, ?_⟩, count.symm⟩
  · obtain ⟨same, _, all⟩ := swept again
    exact ⟨same, all⟩
  · rintro ⟨rfl, rfl⟩
    exact sweep

end ScriptBundle.Downlevel
