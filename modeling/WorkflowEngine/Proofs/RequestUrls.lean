import WorkflowEngine.Fallible.Loops
import WorkflowEngine.Spec.Rest
import WorkflowEngine.UrlText.Append

/-! Where a REST request goes. The validators look at an operation's path as it is written, and
joining takes it as a reference without its first slash: it can name a scheme, a host or dot
segments. The request goes where it was configured exactly when the path continues the base. -/

namespace WorkflowEngine

open UrlText

theorem urlparse_ok {tables : Tables} {url : String} {p : ParseResult} :
    urlparse tables url = .ok p ↔ UrlText.urlparse tables [] url.toList = some p := by
  unfold urlparse
  cases UrlText.urlparse tables [] url.toList <;> simp

theorem urljoin_ok {tables : Tables} {base url joined : String} :
    urljoin tables base url = .ok joined ↔
      UrlText.urljoin tables base.toList url.toList = some joined.toList := by
  unfold urljoin
  cases UrlText.urljoin tables base.toList url.toList with
  | none => simp
  | some text =>
    simp only [Except.ok.injEq, Option.some.injEq]
    exact ⟨fun h => by rw [← h, String.toList_ofList], fun h => by rw [h, String.ofList_toList]⟩

/-- What is stripped are slashes. -/
theorem rstripSlash_eq (url : String) :
    ∃ k, url.toList = (rstripSlash url).toList ++ List.replicate k '/' := by
  have hsplit : url.toList.reverse = url.toList.reverse.takeWhile (· = '/') ++
      url.toList.reverse.dropWhile (· = '/') := List.takeWhile_append_dropWhile.symm
  have hslashes : url.toList.reverse.takeWhile (· = '/') =
      List.replicate (url.toList.reverse.takeWhile (· = '/')).length '/' :=
    List.eq_replicate_of_mem fun c hc => by simpa using List.mem_takeWhile_imp hc
  refine ⟨(url.toList.reverse.takeWhile (· = '/')).length, ?_⟩
  have hback := congrArg List.reverse hsplit
  rw [List.reverse_reverse, List.reverse_append, hslashes, List.reverse_replicate] at hback
  unfold rstripSlash
  rw [String.toList_ofList]
  exact hback

theorem lstripSlash_of_valid {tables : Tables} {path value : String}
    (h : HttpOperation.requireRelativePath tables path = .ok value) :
    path.toList = '/' :: (lstripSlash path).toList ∧
    (lstripSlash path).toList.head? ≠ some '/' := by
  unfold HttpOperation.requireRelativePath at h
  dsimp only at h
  split_ifs at h with hfirst
  · cases h
  · obtain ⟨parsed, -, h⟩ := Fallible.bind_eq_ok.1 h
    split_ifs at h with hrefused
    · cases h
    · obtain ⟨rest, hrest⟩ := List.head?_eq_some_iff.1 (not_not.1 hfirst)
      have hhead : rest.head? ≠ some '/' := by
        intro hslash
        obtain ⟨more, rfl⟩ := List.head?_eq_some_iff.1 hslash
        exact hrefused (Or.inr (hrest ▸ ⟨[], more, rfl⟩))
      have hstrip : (lstripSlash path).toList = rest := by
        unfold lstripSlash
        rw [String.toList_ofList, hrest]
        cases rest with
        | nil => rfl
        | cons c rest =>
          have hc : c ≠ '/' := fun hc => hhead (hc ▸ rfl)
          simp [hc]
      rw [hstrip]
      exact ⟨hrest, hhead⟩

theorem web_base {binding : RestActionBinding} {tables : Tables}
    (h : binding.validateRestContract tables = .ok ()) :
    ∃ base, urlparse tables binding.baseUrl = .ok base ∧ Hierarchical base.scheme ∧
      base.netloc ≠ [] ∧ ∃ host, hostname tables base = some host ∧
        String.ofList host ∈ binding.allowedHosts := by
  unfold RestActionBinding.validateRestContract at h
  obtain ⟨base, hbase, h⟩ := Fallible.bind_eq_ok.1 h
  dsimp only at h
  by_cases horigin : base.scheme ∉ ["http".toList, "https".toList] ∨
    (hostname tables base).getD [] = []
  · rw [if_pos horigin] at h
    cases h
  rw [if_neg horigin] at h
  by_cases hallowed : String.ofList ((hostname tables base).getD []) ∈ binding.allowedHosts
  case neg =>
    rw [if_pos hallowed] at h
    cases h
  rw [not_or, not_not] at horigin
  obtain ⟨hscheme, hhost⟩ := horigin
  have hhierarchical : ∀ s ∈ ["http".toList, "https".toList], Hierarchical s := by
    unfold Hierarchical
    decide
  refine ⟨base, hbase, hhierarchical _ hscheme, fun hnil => hhost ?_, ?_⟩
  · unfold hostname hostinfo
    rw [hnil]
    rfl
  · cases hname : hostname tables base with
    | none =>
      rw [hname] at hhost
      exact absurd rfl hhost
    | some host =>
      rw [hname] at hallowed
      exact ⟨host, rfl, hallowed⟩

namespace RestActionConnector

variable (connector : RestActionConnector) (operation : HttpOperation)

/-- The request goes to what is written behind the base URL: to its scheme, its host, and a path
that begins with that of the base. -/
def GoesTo : Prop :=
  ∃ url, connector.requestUrl operation = .ok url ∧
    url = rstripSlash connector.binding.baseUrl ++ operation.path ∧
    ∃ base stripped parsed, urlparse connector.tables connector.binding.baseUrl = .ok base ∧
      urlparse connector.tables (rstripSlash connector.binding.baseUrl) = .ok stripped ∧
      urlparse connector.tables url = .ok parsed ∧
      parsed.scheme = base.scheme ∧ parsed.netloc = base.netloc ∧
      (∃ host, hostname connector.tables parsed = some host ∧
        String.ofList host ∈ connector.binding.allowedHosts) ∧
      stripped.path <+: parsed.path

variable {connector operation}

theorem goesTo_iff (hbinding : connector.binding.validateRestContract connector.tables = .ok ())
    (hpath : HttpOperation.requireRelativePath connector.tables operation.path =
      .ok operation.path) :
    connector.GoesTo operation ↔ operation.path = "/" ∨ Continues connector.tables
      (rstripSlash connector.binding.baseUrl ++ "/").toList
      (lstripSlash operation.path).toList := by
  obtain ⟨base, hbase, hweb, hnetloc, host, hhost, hallowed⟩ := web_base hbinding
  obtain ⟨hslash, hhead⟩ := lstripSlash_of_valid hpath
  obtain ⟨k, hk⟩ := rstripSlash_eq connector.binding.baseUrl
  have happend := fun rest => @urlparse_append connector.tables _ _ rest _ k hk
    (urlparse_ok.1 hbase) hweb.1 hnetloc
  have hwhole : (rstripSlash connector.binding.baseUrl ++ operation.path).toList =
      (rstripSlash connector.binding.baseUrl ++ "/").toList ++
      (lstripSlash operation.path).toList := by
    rw [String.toList_append, String.toList_append, hslash]
    simp
  obtain ⟨-, q, -, hq, -, -, hqs, hqn, -⟩ := happend []
  have hurl : connector.requestUrl operation =
      .ok (rstripSlash connector.binding.baseUrl ++ operation.path) ↔ operation.path = "/" ∨
      Continues connector.tables (rstripSlash connector.binding.baseUrl ++ "/").toList
        (lstripSlash operation.path).toList := by
    have hbase' : (rstripSlash connector.binding.baseUrl ++ "/").toList =
        (rstripSlash connector.binding.baseUrl).toList ++ ['/'] := by
      rw [String.toList_append]
      rfl
    unfold requestUrl
    rw [urljoin_ok, hwhole]
    by_cases hnil : (lstripSlash operation.path).toList = []
    · -- nothing is joined to the base
      have hroot : operation.path = "/" := by
        rw [← String.ofList_toList (s := operation.path), hslash, hnil]
      refine iff_of_true ?_ (Or.inl hroot)
      rw [hnil, List.append_nil]
      unfold UrlText.urljoin
      rw [if_neg (by simp [hbase']), if_pos rfl]
    · have hne : operation.path ≠ "/" := by
        intro hroot
        rw [hroot] at hslash hnil
        exact hnil (List.cons.inj hslash).2.symm
      rw [or_iff_right hne]
      rw [← hbase'] at hq
      exact urljoin_eq_append hq (hqs ▸ hweb) (hqn ▸ hnetloc) (by simp [hbase']) hnil hhead
  rw [← hurl]
  refine ⟨fun ⟨url, hjoin, htext, _⟩ => htext ▸ hjoin, fun hjoin => ⟨_, hjoin, rfl, base, ?_⟩⟩
  obtain ⟨stripped, parsed, hstripped, hparsed, -, -, hps, hpn, hprefix⟩ :=
    happend (lstripSlash operation.path).toList
  have htext : (rstripSlash connector.binding.baseUrl ++ operation.path).toList =
      (rstripSlash connector.binding.baseUrl).toList ++
        '/' :: (lstripSlash operation.path).toList := by
    rw [String.toList_append, hslash]
  refine ⟨stripped, parsed, hbase, urlparse_ok.2 hstripped,
    urlparse_ok.2 (htext ▸ hparsed), hps, hpn,
    ⟨host, ?_, hallowed⟩, hprefix hweb.2.1⟩
  unfold hostname hostinfo at hhost ⊢
  rw [hpn]
  exact hhost

/-- A provider of refunds. -/
def refundProvider : RestActionConnector where
  binding := {
    baseUrl := "https://api.example.com/v1/"
    allowedHosts := ["api.example.com"]
    execute := { operationId := "refund", path := "/refunds" }
    reconcile := some { operationId := "find", method := "GET", path := "/refunds" }
    statuses := { disjoint := HttpStatusMapping.defaults_disjoint } }
  resolveSecret _ := .ok ""
  tables := ⟨fun _ => true, id⟩

theorem goesTo_iff_refunds : refundProvider.GoesTo refundProvider.binding.execute :=
  (goesTo_iff (by decide +kernel) (by decide +kernel)).2 (Or.inr (by decide +kernel))

/-- A tab between two slashes is none to the validator, and is removed before the host is read. -/
theorem request_leaves_host : ∃ (connector : RestActionConnector) (operation : HttpOperation),
    connector.binding.validateRestContract connector.tables = .ok () ∧
    HttpOperation.requireRelativePath connector.tables operation.path = .ok operation.path ∧
    connector.requestUrl operation = .ok "https://evil.example/x" ∧
    ¬ connector.GoesTo operation := by
  refine ⟨refundProvider, { operationId := "refund", path := "/https:/\t/evil.example/x" },
    by decide +kernel, by decide +kernel, by decide +kernel, ?_⟩
  rintro ⟨url, hjoin, htext, -⟩
  have hurl : refundProvider.requestUrl
      { operationId := "refund", path := "/https:/\t/evil.example/x" } =
      .ok "https://evil.example/x" := by decide +kernel
  rw [htext] at hjoin
  have hsame := Except.ok.inj (hurl.symm.trans hjoin)
  exact absurd hsame (by decide +kernel)

end RestActionConnector
end WorkflowEngine
