import RouteScaffold.Proofs.Files.Partial
import RouteScaffold.Proofs.Run.Escaping

/-!
# Runs that fail while emitting

A run that fails while emitting keeps what it did before.  Its document is cut short at the path or at
the operation where it is stopped, and the files it leaves are those that emitting the shorter document
leaves, which succeeds (`CutShort`, `cutShort_of_run`).  Only where a directory cannot be made there may
be more: the parents of that one directory that could be made.  When the destination itself cannot be
made, nothing but some of its parents is new.

The shorter document is emitted from the same files without what the run had logged before.  That this
makes no difference is what `Action.Does` says of the jobs that succeeded.
-/

namespace RouteScaffold.Run

open Document (Components Operation PathItem)
open Files (FileTree)
open OpenApi (Method)
open Scaffold (Route)

/-! ## The part of a document before a job -/

/-- An action that is seen to succeed on some files succeeds on them whatever was logged before. -/
theorem Action.Does.yields_of_runOn {α : Type} {action : Action α} {workspace middle : Workspace}
    {effect : Effect α} {value : α} (hdoes : action.Does workspace.files effect)
    (hrun : action.runOn workspace = (.ok value, middle)) :
    action.Yields workspace.files value middle.files := by
  obtain ⟨log, hlog⟩ := hdoes workspace rfl
  rw [hrun] at hlog
  obtain ⟨hresult, rfl⟩ := Prod.mk.inj hlog
  intro other hfiles
  obtain ⟨rest, hother⟩ := hdoes other hfiles
  rw [← hresult] at hother
  exact ⟨_, hother, rfl⟩

/-- The operations before the one that a job emits, on its path. -/
theorem exists_operations_of_pathJobs {template : String} {item : PathItem} {first last : List Job}
    {method : Method} {operation : Operation}
    (h : pathJobs (template, item) = first ++ .scaffold template method operation :: last) :
    ∃ earlier later, item.operations = earlier ++ (method, operation) :: later ∧
      first = pathJobs (template, { item with operations := earlier }) := by
  rw [pathJobs] at h
  cases first with
  | nil => cases (List.cons.inj h).1
  | cons head first =>
      obtain ⟨rfl, hscaffolds⟩ := List.cons.inj h
      obtain ⟨earlier, rest, hoperations, hfirst, hrest⟩ := List.map_eq_append_iff.mp hscaffolds
      obtain ⟨⟨found, other⟩, later, rfl, hjob, -⟩ := List.map_eq_cons_iff.mp hrest
      cases hjob
      exact ⟨earlier, later, hoperations, by rw [pathJobs, hfirst]⟩

/-- Nothing comes before the route of a path on it. -/
theorem eq_nil_of_pathJobs {path : String × PathItem} {first last : List Job} {template : String}
    (h : pathJobs path = first ++ .route template :: last) : first = [] := by
  cases first with
  | nil => rfl
  | cons head first =>
      rw [pathJobs, List.cons_append] at h
      obtain ⟨-, hscaffolds⟩ := List.cons.inj h
      have hmem : .route template ∈ first ++ .route template :: last := by simp
      rw [← hscaffolds] at hmem
      obtain ⟨operation, -, hjob⟩ := List.mem_map.mp hmem
      cases hjob

theorem documentJobs_concat (document : Document) (path : String × PathItem) :
    documentJobs { document with paths := document.paths ++ [path] } =
      documentJobs document ++ pathJobs path := by
  simp [documentJobs]

namespace Emitter

variable {emitter : Emitter} {components : Components} {workspace middle after : Workspace}

/-- A document is emitted when its jobs succeed. -/
theorem yields_emitDocument {document : Document} {entries : List Entry}
    (hdone : (emitter.performAll document.components (documentJobs document)).runOn workspace =
      (.ok entries, middle)) :
    (emitter.emitDocument document).Yields workspace.files (.ofEntries entries) middle.files := by
  have hdoes := emitter.does_performAll document.components (documentJobs document) workspace.files
  rw [emitDocument_eq]
  exact (hdoes.yields_of_runOn hdone).bind (Action.yields_pure _ _)

/-! ## What a job leaves that fails -/

/-- A directory that cannot be made leaves some of its parents. -/
theorem opensPartly_of_makeDirectories {path : String} {failure : Failure}
    (h : (Action.makeDirectories path).runOn workspace = (.error failure, after)) :
    workspace.files.OpensPartly path after.files := by
  rw [Action.runOn_makeDirectories] at h
  obtain ⟨hresult, rfl⟩ := Prod.mk.inj h
  refine FileTree.opensPartly_of_fault fun hnone => ?_
  rw [hnone] at hresult
  cases hresult

theorem opensPartly_of_destination {failure : Failure}
    (h : (emitter.perform components .destination).runOn workspace = (.error failure, after)) :
    workspace.files.OpensPartly emitter.destination after.files := by
  rcases Action.runOn_bind_error.mp h with hmade | ⟨_, _, _, hrest⟩
  · obtain ⟨started, hfiles, hrun⟩ := emitter.runOn_makeDestination workspace
    rw [hrun] at hmade
    rw [← hfiles]
    exact opensPartly_of_makeDirectories hmade
  · cases hrest

theorem opensPartly_of_route {template : String} {route : Route} {failure : Failure}
    (hroute : Route.of? emitter.destination template = some route)
    (h : (emitter.perform components (.route template)).runOn workspace = (.error failure, after)) :
    workspace.files.OpensPartly route.directory after.files := by
  rcases Action.runOn_bind_error.mp h with hprepare | ⟨_, _, _, hrest⟩
  · rcases prepare_error hprepare with ⟨hnone, -⟩ | ⟨found, hfound, hmade⟩
    · cases hroute.symm.trans hnone
    · obtain rfl : found = route := Option.some.inj (hfound.symm.trans hroute)
      exact opensPartly_of_makeDirectories hmade
  · cases hrest

/-! ## Cutting a document short -/

/-- How emitting a document fails, and the files it leaves: those that the part of the document before the
failure leaves, and parents of the directory that could not be made. -/
inductive CutShort (emitter : Emitter) (files : FileTree) (document : Document) :
    Failure → FileTree → Prop
  /-- The destination cannot be made. -/
  | destination {fault : Files.Fault} {after : FileTree}
      (hopens : files.OpensPartly emitter.destination after) :
      CutShort emitter files document (.unwritable emitter.destination fault) after
  /-- The route of a path would leave the destination. -/
  | escape {front back : List (String × PathItem)} {template : String} {item : PathItem}
      {report : Report} {left : FileTree} (hpaths : document.paths = front ++ (template, item) :: back)
      (hroute : Route.of? emitter.destination template = none)
      (hleft : (emitter.emitDocument { document with paths := front }).Yields files report left) :
      CutShort emitter files document (.escapingPath (RouteScaffold.Route.mapTemplate template)) left
  /-- The directory of a route cannot be made. -/
  | route {front back : List (String × PathItem)} {template : String} {item : PathItem} {route : Route}
      {report : Report} {fault : Files.Fault} {left after : FileTree}
      (hpaths : document.paths = front ++ (template, item) :: back)
      (hroute : Route.of? emitter.destination template = some route)
      (hleft : (emitter.emitDocument { document with paths := front }).Yields files report left)
      (hopens : left.OpensPartly route.directory after) :
      CutShort emitter files document (.unwritable route.directory fault) after
  /-- A scaffold cannot be written. -/
  | scaffold {front back : List (String × PathItem)} {template : String} {item : PathItem}
      {earlier later : List (Method × Operation)} {method : Method} {operation : Operation}
      {route : Route} {report : Report} {fault : Files.Fault} {left : FileTree}
      (hpaths : document.paths = front ++ (template, item) :: back)
      (hoperations : item.operations = earlier ++ (method, operation) :: later)
      (hroute : Route.of? emitter.destination template = some route)
      (hleft : (emitter.emitDocument { document with
        paths := front ++ [(template, { item with operations := earlier })] }).Yields files report left) :
      CutShort emitter files document
        (.unwritable (emitter.scaffoldOf document.components route method operation).file fault) left

/-- A document whose emission fails is cut short where it failed. -/
theorem cutShort_of_emitDocument {document : Document} {failure : Failure}
    (h : (emitter.emitDocument document).runOn workspace = (.error failure, after)) :
    emitter.CutShort workspace.files document failure after.files := by
  rw [emitDocument_eq] at h
  rcases Action.runOn_bind_error.mp h with hperform | ⟨_, _, _, hreturn⟩
  swap
  · cases hreturn
  obtain ⟨done, job, rest, entries, middle, hjobs, hdone, hjob⟩ := exists_job_of_performAll hperform
  -- the failure tells which job stopped; the files are told by the job itself
  have hstops := stops_of_perform hjob
  generalize hreached : middle.files = reached at hstops
  generalize hend : after.files = final at hstops ⊢
  cases hstops with
  | destination hcreated hgrows =>
      obtain rfl := eq_nil_of_documentJobs hjobs
      cases hdone
      exact hend ▸ .destination (opensPartly_of_destination hjob)
  | route hroute hcreated hgrows =>
      obtain ⟨front, item, back, hpaths, first, last, hpath, rfl⟩ :=
        exists_path_of_documentJobs hjobs rfl
      rw [eq_nil_of_pathJobs hpath, List.append_nil] at hdone
      exact hend ▸ .route hpaths hroute (yields_emitDocument hdone)
        (opensPartly_of_route hroute hjob)
  | scaffold hroute =>
      obtain ⟨front, item, back, hpaths, first, last, hpath, rfl⟩ :=
        exists_path_of_documentJobs hjobs rfl
      obtain ⟨earlier, later, hoperations, rfl⟩ := exists_operations_of_pathJobs hpath
      rw [← documentJobs_concat { document with paths := front }] at hdone
      exact hreached ▸ .scaffold hpaths hoperations hroute (yields_emitDocument hdone)
  | escape htemplate hroute =>
      obtain ⟨front, item, back, hpaths, rfl⟩ :=
        eq_documentJobs_of_escape hjobs (doneAll_of_performAll hdone) htemplate hroute
      exact hreached ▸ .escape hpaths hroute (yields_emitDocument hdone)

end Emitter

/-! ## The whole run -/

/-- The last event of a run that fails while emitting. -/
theorem getLast?_log_of_run {settings : Settings} {files : FileTree} {document : Document}
    {failure : Failure} (hdocument : settings.document files = .ok document)
    (hrun : (run settings files).result = .error failure) :
    (run settings files).workspace.log.getLast? = some (.failed .emitting failure) := by
  obtain ⟨title, version, heq⟩ := run_of_document_ok hdocument
  rw [heq] at hrun ⊢
  split at hrun
  · cases hrun
    exact List.getLast?_concat
  · cases hrun

/-- A run that fails while emitting keeps what the part of its document leaves that comes before the
failure, with some parents of a directory that could not be made, and nothing else. -/
theorem cutShort_of_run {settings : Settings} {files : FileTree} {failure : Failure}
    (h : (run settings files).workspace.log.getLast? = some (.failed .emitting failure)) :
    (run settings files).result = .error failure ∧ ∃ document,
      settings.document files = .ok document ∧
        settings.emitter.CutShort files document failure (run settings files).workspace.files := by
  cases hdocument : settings.document files with
  | error fault =>
      obtain ⟨stage, log, hstage, hrun⟩ := run_of_document_error hdocument
      rw [hrun] at h
      have hlast := (List.getLast?_concat (l := log)).symm.trans h
      cases hlast
      exact absurd rfl hstage
  | ok document =>
      obtain ⟨title, version, hrun⟩ := run_of_document_ok hdocument
      rw [hrun] at h ⊢
      split at h
      · rename_i fault after hemit
        have hlast := (List.getLast?_concat (l := after.log)).symm.trans h
        cases hlast
        exact ⟨rfl, document, rfl, Emitter.cutShort_of_emitDocument hemit⟩
      · rename_i report after hemit
        have hlast := (List.getLast?_concat (l := after.log)).symm.trans h
        cases hlast

/-- The run that is stopped by its second path keeps what it did for the first one. -/
theorem cutShort_of_run_astray :
    (run twinSettings astrayFiles).workspace.log.getLast? =
        some (.failed .emitting (.escapingPath "/..")) ∧
      (run twinSettings astrayFiles).result = .error (.escapingPath "/..") ∧
        ∃ document, twinSettings.document astrayFiles = .ok document ∧
          twinSettings.emitter.CutShort astrayFiles document (.escapingPath "/..")
            (run twinSettings astrayFiles).workspace.files :=
  have hlog := getLast?_log_of_run document_astrayFiles run_astray.1
  ⟨hlog, cutShort_of_run hlog⟩

end RouteScaffold.Run
