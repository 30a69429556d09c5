import SemanticLayer.Catalog

namespace SemanticLayer.Command

structure Host (m : Type → Type) where
  value? : String → m (Option String)
  exists? : String → m Bool
  readText : String → m (Except String String)
  readCatalog : String → m (Except String Catalog)
  configHome : m (Option String)

end SemanticLayer.Command
