import RpcStubs.Artifact.Line
import RpcStubs.Model
namespace RpcStubs.Artifact

/-!
# Pagination

The file with the page fetchers and with one iterator per list operation.
-/

/-- The type of a page fetcher. -/
def fetcherType (fetcher : PageFetcher) : List Line := [
  fixed "",
  [.text "// ", .text fetcher.name, .text " returns the page of ", .text fetcher.itemType,
    .text " items starting at offset."],
  fixed "// An empty page ends the iteration.",
  [.text "type ", .declared fetcher.name, .text " func(ctx context.Context, offset int64) ([]*",
    .message fetcher.itemType, .text ", error)"]]

/-- The type of an iterator. -/
def iteratorType (list : ListOperation) : List Line := [
  fixed "",
  [.text "// ", .text list.iteratorName, .text " walks every ", .text list.itemType,
    .text " returned by ", .text list.methodName, .text ", page by page."],
  [.text "type ", .declared list.iteratorName, .text " struct \x7b"],
  fixed "\tctx    context.Context",
  [.text "\tfetch  ", .text list.fetcherName],
  [.text "\tpage   []*", .message list.itemType],
  fixed "\tindex  int",
  fixed "\toffset int64",
  [.text "\titem   *", .message list.itemType],
  fixed "\tdone   bool",
  fixed "\terr    error",
  fixed "\x7d"]

/-- The constructor of an iterator. -/
def iteratorConstructor (list : ListOperation) : List Line := [
  fixed "",
  [.text "// New", .text list.iteratorName, .text " pages through ", .text list.methodName,
    .text ", advancing req's offset by the page size."],
  [.text "func ", .declared ("New" ++ list.iteratorName),
    .text "(ctx context.Context, c *Client, req *", .message list.requestType, .text ") *",
    .text list.iteratorName, .text " \x7b"],
  [.text "\tbase := proto.Clone(req).(*", .message list.requestType, .text ")"],
  [.text "\tfetch := func(ctx context.Context, offset int64) ([]*", .message list.itemType,
    .text ", error) \x7b"],
  [.text "\t\tpage := proto.Clone(base).(*", .message list.requestType, .text ")"],
  fixed "\t\tpage.Offset = offset",
  [.text "\t\tresp, err := c.", .text list.methodName, .text "(ctx, page)"],
  fixed "\t\tif err != nil \x7b",
  fixed "\t\t\treturn nil, err",
  fixed "\t\t\x7d",
  [.text "\t\treturn resp.", .text list.responseField, .text ", nil"],
  fixed "\t\x7d",
  [.text "\treturn &", .text list.iteratorName,
    .text "\x7bctx: ctx, fetch: fetch, offset: base.Offset\x7d"],
  fixed "\x7d"]

/-- The method that takes an iterator to the next item. -/
def iteratorNext (list : ListOperation) : List Line := [
  fixed "",
  fixed "// Next advances to the next item, fetching a new page when needed.",
  [.text "func (it *", .text list.iteratorName, .text ") Next() bool \x7b"],
  fixed "\tif it.done \x7b",
  fixed "\t\treturn false",
  fixed "\t\x7d",
  fixed "\tif it.index >= len(it.page) \x7b",
  fixed "\t\tpage, err := it.fetch(it.ctx, it.offset)",
  fixed "\t\tif err != nil \x7b",
  fixed "\t\t\tit.err = err",
  fixed "\t\t\tit.done = true",
  fixed "\t\t\treturn false",
  fixed "\t\t\x7d",
  fixed "\t\tif len(page) == 0 \x7b",
  fixed "\t\t\tit.done = true",
  fixed "\t\t\treturn false",
  fixed "\t\t\x7d",
  fixed "\t\tit.page = page",
  fixed "\t\tit.index = 0",
  fixed "\t\tit.offset += int64(len(page))",
  fixed "\t\x7d",
  fixed "\tit.item = it.page[it.index]",
  fixed "\tit.index++",
  fixed "\treturn true",
  fixed "\x7d"]

/-- The methods that give the item of an iterator and its error. -/
def iteratorResults (list : ListOperation) : List Line := [
  fixed "",
  fixed "// Item returns the current item.",
  [.text "func (it *", .text list.iteratorName, .text ") Item() *", .message list.itemType,
    .text " \x7b"],
  fixed "\treturn it.item",
  fixed "\x7d",
  fixed "",
  fixed "// Err returns the error that stopped the iteration, if any.",
  [.text "func (it *", .text list.iteratorName, .text ") Err() error \x7b"],
  fixed "\treturn it.err",
  fixed "\x7d"]

/-- Everything about the iterator of a list operation. -/
def iterator (list : ListOperation) : List Line :=
  iteratorType list ++ iteratorConstructor list ++ iteratorNext list ++ iteratorResults list

/-- The lines of the pagination file. -/
def paginationLines (model : Model) : List Line :=
  [
    [.text "package ", .text model.package],
    fixed "",
    fixed "import (",
    fixed "\t\"context\"",
    fixed "",
    fixed "\t\"google.golang.org/protobuf/proto\"",
    fixed "",
    [.text "\tpb \"", .text model.protoImport, .text "\""],
    fixed ")"] ++
  model.fetchers.flatMap fetcherType ++
  model.lists.flatMap iterator

end RpcStubs.Artifact
