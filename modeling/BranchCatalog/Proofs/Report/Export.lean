import BranchCatalog.Proofs.Disk.Writing
import BranchCatalog.Proofs.Report.Csv
import BranchCatalog.Proofs.Report.Html
import BranchCatalog.Proofs.Report.Traversal
import BranchCatalog.Proofs.Store.Damage
import BranchCatalog.Report.Export

namespace BranchCatalog

section Export

variable {disk emptied : Disk} {path : Path} {tables : Tables} {rows : List ReportRow}

/-- An export of rows that can be read, to a file that can be written, leaves its document in the file. -/
theorem exists_exportRows (readable : tables.reportRows = .ok rows)
    (writable : disk.write path [] = .ok emptied) (document : List ReportRow → Text) :
    ∃ written, exportRows disk path tables document = (.ok rows.length, written) ∧
      written.read path = .ok (Text.encodeUtf8 (document rows)) := by
  obtain ⟨written, again⟩ :=
    Disk.exists_write_of_write writable (Text.encodeUtf8 (document rows))
  refine ⟨written, ?_, Disk.read_of_write again⟩
  simp only [exportRows, writable, readable, again]

end Export

/-- The records of any report rows can be written, and a reader of records finds the header and then one record
of sixteen fields for each row, which gives back the row. Different rows are written as different bytes. What an
export counts are the records in its file. -/
theorem exportCsv_lossless (rows : List ReportRow) :
    Csv.writeRecords? (Csv.header :: rows.map Csv.fields) = some (Csv.document rows) ∧
    Csv.readRecords (Csv.document rows) = Csv.header :: rows.map Csv.fields ∧
    (∀ record ∈ Csv.readRecords (Csv.document rows), record.length = 16) ∧
    (Csv.readRecords (Csv.document rows)).tail.map Csv.readRow? = rows.map some ∧
    (∀ others, Text.encodeUtf8 (Csv.document others) = Text.encodeUtf8 (Csv.document rows) →
      others = rows) ∧
    ∀ disk emptied path tables, tables.reportRows = .ok rows → disk.write path [] = .ok emptied →
      ∃ written, exportCsv disk path tables =
          (.ok (Csv.readRecords (Csv.document rows)).tail.length, written) ∧
        written.read path = .ok (Text.encodeUtf8 (Csv.document rows)) := by
  have read := Csv.readRecords_document rows
  refine ⟨Csv.writeRecords?_document rows, read, ?_, Csv.readRows_document rows, ?_, ?_⟩
  · intro record member
    rw [read] at member
    rcases List.mem_cons.mp member with rfl | data
    · decide
    · obtain ⟨row, -, rfl⟩ := List.mem_map.mp data
      exact Csv.fields_length row
  · exact fun others same => Csv.document_injective (Text.encodeUtf8_injective same)
  · intro disk emptied path tables readable writable
    rw [read, List.tail_cons, List.length_map]
    exact exists_exportRows readable writable Csv.document

/-- A tree name with a comma and a quote, a title with line ends and a branch without any text come back from
the file, and so does a tree that has no branch. -/
theorem exportCsv_lossless_of_quoted :
    let tables := (Workbench.empty.run [.insertFile [], .insertTree ⟨"t,\"".toList, "\r\n".toList, [], 1, 3⟩,
      .insertBranch ⟨1, [], [], [], 1, 0⟩, .insertTree ⟨[], [], [], 1, 4⟩]).store.tables
    let rows : List ReportRow :=
      [⟨⟨[], 3⟩, "t,\"".toList, "\r\n".toList, [], some ⟨⟨[], 0⟩, [], [], []⟩, none, none⟩,
        ⟨⟨[], 4⟩, [], [], [], none, none, none⟩]
    ∃ text written, exportCsv Disk.empty ['r'] tables = (.ok 2, written) ∧
      written.read ['r'] = .ok (Text.encodeUtf8 text) ∧
      (Csv.readRecords text).tail.map Csv.readRow? = rows.map some := by
  intro tables rows
  have numbered : tables.Numbered := Store.numbered_of_calls_and_damage _ []
  have fit : tables.LinesFit := ⟨by decide, by decide, fun kind => by cases kind <;> decide⟩
  have readable : tables.reportRows = .ok rows := (fit.reportRows_eq_map numbered).trans (by decide)
  have writable : Disk.empty.write ['r'] [] = .ok (Disk.empty.put [['r']] (.file [])) :=
    Disk.write_eq_ok_iff.mpr ⟨[['r']], by decide, by decide, by decide, rfl⟩
  obtain ⟨-, read, -, again, -, whole⟩ := exportCsv_lossless rows
  obtain ⟨written, exported, holds⟩ := whole Disk.empty _ ['r'] tables readable writable
  rw [read] at exported
  exact ⟨Csv.document rows, written, exported, holds, again⟩

/-- A document is its opening, a row of titles, the rows of data and its closing. The data cut apart at the ends
of rows and cells give ten cells for each report row, and each cell shows its content: a text or a link, whatever
characters the texts and the template hold. What an export counts are the rows of data in its file. -/
theorem exportHtml_keeps_markup (template : LinkTemplate) (rows : List ReportRow) :
    ∃ data table,
      Html.document template rows = Html.opening ++ Html.headerRow ++ data ++ Html.closing ∧
      Html.readRows? data = some table ∧
      List.Forall₂ (fun row cells => cells.length = 10 ∧
        List.Forall₂ (fun content cell => content.IsShownBy template cell ∧
          Html.anchorCount cell = content.anchors) (Html.contents row) cells) rows table ∧
      ∀ disk emptied path tables, tables.reportRows = .ok rows → disk.write path [] = .ok emptied →
        ∃ written, exportHtml disk path tables template = (.ok table.length, written) ∧
          written.read path = .ok (Text.encodeUtf8 (Html.document template rows)) := by
  refine ⟨rows.flatMap fun row => Html.dataRow (Html.cells template row),
    rows.map (Html.cells template), rfl, Html.readRows?_cells template rows, ?_, ?_⟩
  · rw [List.forall₂_map_right_iff, List.forall₂_same]
    intro row _
    refine ⟨Html.cells_length template row, (Html.forall₂_isShownBy_cells template row).imp ?_⟩
    exact fun content cell shown => ⟨shown, shown.anchorCount⟩
  · intro disk emptied path tables readable writable
    rw [List.length_map]
    exact exists_exportRows readable writable (Html.document template)

/-- A tree with markup for its name, in a file whose name would end a quoted target, has its link and its name in
the first two of ten cells. -/
theorem exportHtml_keeps_markup_of_tags :
    let tables := (Workbench.empty.run [.insertFile "\">".toList,
      .insertTree ⟨"</td>".toList, [], [], 1, 3⟩]).store.tables
    let template := LinkTemplate.default
    ∃ document written link name rest, exportHtml Disk.empty ['r'] tables template = (.ok 1, written) ∧
      written.read ['r'] = .ok (Text.encodeUtf8 document) ∧
      (∃ data, document = Html.opening ++ Html.headerRow ++ data ++ Html.closing ∧
        Html.readRows? data = some [link :: name :: rest]) ∧ rest.length = 8 ∧
      Html.ShowsLink template ⟨"\">".toList, 3⟩ link ∧ Html.anchorCount link = 1 ∧
      Html.ShowsText "</td>".toList name := by
  intro tables template
  let row : ReportRow := ⟨⟨"\">".toList, 3⟩, "</td>".toList, [], [], none, none, none⟩
  have numbered : tables.Numbered := Store.numbered_of_calls_and_damage _ []
  have fit : tables.LinesFit := ⟨by decide, by decide, fun kind => by cases kind <;> decide⟩
  have readable : tables.reportRows = .ok [row] :=
    (fit.reportRows_eq_map numbered).trans (by decide)
  have writable : Disk.empty.write ['r'] [] = .ok (Disk.empty.put [['r']] (.file [])) :=
    Disk.write_eq_ok_iff.mpr ⟨[['r']], by decide, by decide, by decide, rfl⟩
  obtain ⟨data, table, split, read, shown, whole⟩ := exportHtml_keeps_markup template [row]
  obtain ⟨written, exported, holds⟩ := whole Disk.empty _ ['r'] tables readable writable
  obtain _ | ⟨⟨size, cells⟩, none⟩ := shown
  cases none
  obtain _ | ⟨⟨linkShown, single⟩, _ | ⟨⟨nameShown, -⟩, _⟩⟩ := cells
  exact ⟨_, written, _, _, _, exported, holds, ⟨data, split, read⟩, by simpa using size, linkShown,
    single, nameShown⟩

end BranchCatalog
