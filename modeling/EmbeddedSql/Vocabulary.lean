/-
**SQL words used by completion and highlighting, in the dialect of DuckDB.**

* `Vocabulary.phrases` — keywords and keyword phrases in the order they are offered;
* `Vocabulary.keywords` — single words highlighted as keywords;
* `Vocabulary.functions` — functions that are known without a call, in increasing order;
* `Vocabulary.tableKeywords` — keywords that make the identifiers after them tables.
-/

set_option relaxedAutoImplicit false
set_option autoImplicit false

namespace EmbeddedSql.Vocabulary

/-- Phrases offered as completions. -/
def phrases : List String :=
  ["SELECT", "FROM", "WHERE", "JOIN", "LEFT JOIN", "RIGHT JOIN", "INNER JOIN", "OUTER JOIN",
   "ON", "GROUP BY", "HAVING", "ORDER BY", "LIMIT", "OFFSET", "INSERT", "INTO", "VALUES",
   "UPDATE", "SET", "DELETE", "CREATE", "TABLE", "VIEW", "INDEX", "DROP", "ALTER", "AS", "AND",
   "OR", "NOT", "IN", "EXISTS", "BETWEEN", "LIKE", "IS NULL", "IS NOT NULL", "DISTINCT", "ALL",
   "ASC", "DESC", "UNION", "INTERSECT", "EXCEPT", "WITH", "RECURSIVE", "WINDOW", "PARTITION BY",
   "OVER", "NULLS FIRST", "NULLS LAST", "EXCLUDE", "REPLACE", "COLUMNS", "INSTALL", "LOAD",
   "ATTACH", "DETACH", "USE", "PRAGMA", "COPY", "EXPORT", "SHOW", "TABLES", "DESCRIBE",
   "SUMMARIZE", "EXPLAIN", "CASE", "WHEN", "THEN", "ELSE", "END", "CAST", "USING", "RETURNING",
   "CROSS JOIN", "FULL OUTER JOIN", "NATURAL JOIN", "SEMI JOIN", "ANTI JOIN", "QUALIFY",
   "ASOF JOIN", "POSITIONAL JOIN"]

/-- Words that are keywords on their own, names of types among them. -/
def keywords : List String :=
  ["SELECT", "FROM", "WHERE", "GROUP", "BY", "ORDER", "HAVING", "LIMIT", "OFFSET", "INSERT",
   "INTO", "VALUES", "UPDATE", "SET", "DELETE", "CREATE", "TABLE", "DROP", "ALTER", "INDEX",
   "VIEW", "JOIN", "INNER", "LEFT", "RIGHT", "FULL", "OUTER", "CROSS", "ON", "USING", "AS",
   "AND", "OR", "NOT", "IN", "EXISTS", "BETWEEN", "LIKE", "IS", "NULL", "TRUE", "FALSE", "CASE",
   "WHEN", "THEN", "ELSE", "END", "DISTINCT", "ALL", "UNION", "INTERSECT", "EXCEPT", "WITH",
   "RECURSIVE", "CAST", "INTERVAL", "ASC", "DESC", "NULLS", "FIRST", "LAST", "INSTALL", "LOAD",
   "ATTACH", "DETACH", "COPY", "EXPORT", "IMPORT", "PRAGMA", "DESCRIBE", "SHOW", "SUMMARIZE",
   "PIVOT", "UNPIVOT", "EXPLAIN", "ANALYZE", "VACUUM", "CHECKPOINT", "FORCE", "PRIMARY", "KEY",
   "FOREIGN", "REFERENCES", "CONSTRAINT", "UNIQUE", "CHECK", "DEFAULT", "SEQUENCE", "GENERATED",
   "TEMPORARY", "TEMP", "IF", "REPLACE", "RETURNING", "CONFLICT", "DO", "NOTHING", "WINDOW",
   "OVER", "PARTITION", "RANGE", "ROWS", "PRECEDING", "FOLLOWING", "UNBOUNDED", "CURRENT", "ROW",
   "FILTER", "EXCLUDE", "COLUMNS", "QUALIFY", "INTEGER", "INT", "BIGINT", "SMALLINT", "TINYINT",
   "HUGEINT", "DOUBLE", "REAL", "FLOAT", "DECIMAL", "NUMERIC", "VARCHAR", "CHAR", "TEXT",
   "STRING", "DATE", "TIME", "TIMESTAMP", "TIMESTAMPTZ", "BOOLEAN", "BOOL", "BLOB", "BYTEA",
   "JSON", "ARRAY", "LIST", "STRUCT", "MAP", "UUID", "ENUM"]

/-- Common functions, in increasing order. -/
def functions : List String :=
  ["ARRAY_AGG", "AVG", "COALESCE", "CONCAT", "COUNT", "CURRENT_DATE", "CURRENT_TIMESTAMP",
   "DATE_TRUNC", "DENSE_RANK", "EXTRACT", "FIRST_VALUE", "GREATEST", "LAG", "LAST_VALUE", "LEAD",
   "LEAST", "LENGTH", "LIST_VALUE", "LOWER", "MAKE_DATE", "MAKE_TIMESTAMP", "MAX", "MIN", "NOW",
   "NTH_VALUE", "NULLIF", "RANK", "REGEXP_MATCHES", "ROW_NUMBER", "STRFTIME", "STRING_AGG",
   "STRUCT_PACK", "SUBSTRING", "SUM", "TRIM", "UNNEST", "UPPER"]

/-- Keywords after which an identifier names a table. -/
def tableKeywords : List String :=
  ["FROM", "JOIN", "INNER", "LEFT", "RIGHT", "OUTER", "CROSS", "INTO", "TABLE", "VIEW"]

end EmbeddedSql.Vocabulary
